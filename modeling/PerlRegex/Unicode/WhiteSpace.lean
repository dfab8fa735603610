import PerlRegex.Unicode.CodePointSet
namespace PerlRegex.Unicode

/-! The code points with the White_Space property. -/

def whiteSpace : CodePointSet :=
  .node (.node (.node (.run 0x9 0xD) 0x20 0x20 .empty) 0x85 0x85 (.node (.run 0xA0 0xA0)
    0x1680 0x1680 .empty)) 0x2000 0x200A (.node (.node (.run 0x2028 0x2029) 0x202F 0x202F .empty)
    0x205F 0x205F (.run 0x3000 0x3000))

end PerlRegex.Unicode
