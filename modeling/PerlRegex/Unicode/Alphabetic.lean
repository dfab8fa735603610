import PerlRegex.Unicode.CodePointSet
namespace PerlRegex.Unicode

/-! The code points with the Alphabetic property: letters, letter-like numbers and the marks that
spell with them. -/

def alphabetic : CodePointSet :=
  .node (.node (.node (.node (.node (.node (.node (.node (.node (.run 0x41 0x5A) 0x61 0x7A
    .empty) 0xAA 0xAA (.node (.run 0xB5 0xB5) 0xBA 0xBA .empty)) 0xC0 0xD6 (.node (.node
    (.run 0xD8 0xF6) 0xF8 0x2C1 .empty) 0x2C6 0x2D1 (.node (.run 0x2E0 0x2E4) 0x2EC 0x2EC
    .empty))) 0x2EE 0x2EE (.node (.node (.node (.run 0x345 0x345) 0x363 0x374 .empty) 0x376 0x377
    (.node (.run 0x37A 0x37D) 0x37F 0x37F .empty)) 0x386 0x386 (.node (.node (.run 0x388 0x38A)
    0x38C 0x38C .empty) 0x38E 0x3A1 (.node (.run 0x3A3 0x3F5) 0x3F7 0x481 .empty)))) 0x48A 0x52F
    (.node (.node (.node (.node (.run 0x531 0x556) 0x559 0x559 .empty) 0x560 0x588 (.node
    (.run 0x5B0 0x5BD) 0x5BF 0x5BF .empty)) 0x5C1 0x5C2 (.node (.node (.run 0x5C4 0x5C5)
    0x5C7 0x5C7 .empty) 0x5D0 0x5EA (.node (.run 0x5EF 0x5F2) 0x610 0x61A .empty))) 0x620 0x657
    (.node (.node (.node (.run 0x659 0x65F) 0x66E 0x6D3 .empty) 0x6D5 0x6DC (.node
    (.run 0x6E1 0x6E8) 0x6ED 0x6EF .empty)) 0x6FA 0x6FC (.node (.node (.run 0x6FF 0x6FF)
    0x710 0x73F .empty) 0x74D 0x7B1 (.node (.run 0x7CA 0x7EA) 0x7F4 0x7F5 .empty))))) 0x7FA 0x7FA
    (.node (.node (.node (.node (.node (.run 0x800 0x817) 0x81A 0x82C .empty) 0x840 0x858 (.node
    (.run 0x860 0x86A) 0x870 0x887 .empty)) 0x889 0x88F (.node (.node (.run 0x897 0x897)
    0x8A0 0x8C9 .empty) 0x8D4 0x8DF (.node (.run 0x8E3 0x8E9) 0x8F0 0x93B .empty))) 0x93D 0x94C
    (.node (.node (.node (.run 0x94E 0x950) 0x955 0x963 .empty) 0x971 0x983 (.node
    (.run 0x985 0x98C) 0x98F 0x990 .empty)) 0x993 0x9A8 (.node (.node (.run 0x9AA 0x9B0)
    0x9B2 0x9B2 .empty) 0x9B6 0x9B9 (.node (.run 0x9BD 0x9C4) 0x9C7 0x9C8 .empty)))) 0x9CB 0x9CC
    (.node (.node (.node (.node (.run 0x9CE 0x9CE) 0x9D7 0x9D7 .empty) 0x9DC 0x9DD (.node
    (.run 0x9DF 0x9E3) 0x9F0 0x9F1 .empty)) 0x9FC 0x9FC (.node (.node (.run 0xA01 0xA03)
    0xA05 0xA0A .empty) 0xA0F 0xA10 (.node (.run 0xA13 0xA28) 0xA2A 0xA30 .empty))) 0xA32 0xA33
    (.node (.node (.node (.run 0xA35 0xA36) 0xA38 0xA39 .empty) 0xA3E 0xA42 (.node
    (.run 0xA47 0xA48) 0xA4B 0xA4C .empty)) 0xA51 0xA51 (.node (.node (.run 0xA59 0xA5C)
    0xA5E 0xA5E .empty) 0xA70 0xA75 (.node (.run 0xA81 0xA83) 0xA85 0xA8D .empty))))))
    0xA8F 0xA91 (.node (.node (.node (.node (.node (.node (.run 0xA93 0xAA8) 0xAAA 0xAB0 .empty)
    0xAB2 0xAB3 (.node (.run 0xAB5 0xAB9) 0xABD 0xAC5 .empty)) 0xAC7 0xAC9 (.node (.node
    (.run 0xACB 0xACC) 0xAD0 0xAD0 .empty) 0xAE0 0xAE3 (.node (.run 0xAF9 0xAFC) 0xB01 0xB03
    .empty))) 0xB05 0xB0C (.node (.node (.node (.run 0xB0F 0xB10) 0xB13 0xB28 .empty) 0xB2A 0xB30
    (.node (.run 0xB32 0xB33) 0xB35 0xB39 .empty)) 0xB3D 0xB44 (.node (.node (.run 0xB47 0xB48)
    0xB4B 0xB4C .empty) 0xB56 0xB57 (.node (.run 0xB5C 0xB5D) 0xB5F 0xB63 .empty)))) 0xB71 0xB71
    (.node (.node (.node (.node (.run 0xB82 0xB83) 0xB85 0xB8A .empty) 0xB8E 0xB90 (.node
    (.run 0xB92 0xB95) 0xB99 0xB9A .empty)) 0xB9C 0xB9C (.node (.node (.run 0xB9E 0xB9F)
    0xBA3 0xBA4 .empty) 0xBA8 0xBAA (.node (.run 0xBAE 0xBB9) 0xBBE 0xBC2 .empty))) 0xBC6 0xBC8
    (.node (.node (.node (.run 0xBCA 0xBCC) 0xBD0 0xBD0 .empty) 0xBD7 0xBD7 (.node
    (.run 0xC00 0xC0C) 0xC0E 0xC10 .empty)) 0xC12 0xC28 (.node (.node (.run 0xC2A 0xC39)
    0xC3D 0xC44 .empty) 0xC46 0xC48 (.node (.run 0xC4A 0xC4C) 0xC55 0xC56 .empty))))) 0xC58 0xC5A
    (.node (.node (.node (.node (.node (.run 0xC5C 0xC5D) 0xC60 0xC63 .empty) 0xC80 0xC83 (.node
    (.run 0xC85 0xC8C) 0xC8E 0xC90 .empty)) 0xC92 0xCA8 (.node (.node (.run 0xCAA 0xCB3)
    0xCB5 0xCB9 .empty) 0xCBD 0xCC4 (.node (.run 0xCC6 0xCC8) 0xCCA 0xCCC .empty))) 0xCD5 0xCD6
    (.node (.node (.node (.run 0xCDC 0xCDE) 0xCE0 0xCE3 .empty) 0xCF1 0xCF3 (.node
    (.run 0xD00 0xD0C) 0xD0E 0xD10 .empty)) 0xD12 0xD3A (.node (.node (.run 0xD3D 0xD44)
    0xD46 0xD48 .empty) 0xD4A 0xD4C (.node (.run 0xD4E 0xD4E) 0xD54 0xD57 .empty)))) 0xD5F 0xD63
    (.node (.node (.node (.node (.run 0xD7A 0xD7F) 0xD81 0xD83 .empty) 0xD85 0xD96 (.node
    (.run 0xD9A 0xDB1) 0xDB3 0xDBB .empty)) 0xDBD 0xDBD (.node (.node (.run 0xDC0 0xDC6)
    0xDCF 0xDD4 .empty) 0xDD6 0xDD6 (.node (.run 0xDD8 0xDDF) 0xDF2 0xDF3 .empty))) 0xE01 0xE3A
    (.node (.node (.node (.run 0xE40 0xE46) 0xE4D 0xE4D .empty) 0xE81 0xE82 (.node
    (.run 0xE84 0xE84) 0xE86 0xE8A .empty)) 0xE8C 0xEA3 (.node (.node (.run 0xEA5 0xEA5)
    0xEA7 0xEB9 .empty) 0xEBB 0xEBD (.run 0xEC0 0xEC4))))))) 0xEC6 0xEC6 (.node (.node (.node
    (.node (.node (.node (.node (.run 0xECD 0xECD) 0xEDC 0xEDF .empty) 0xF00 0xF00 (.node
    (.run 0xF40 0xF47) 0xF49 0xF6C .empty)) 0xF71 0xF83 (.node (.node (.run 0xF88 0xF97)
    0xF99 0xFBC .empty) 0x1000 0x1036 (.node (.run 0x1038 0x1038) 0x103B 0x103F .empty)))
    0x1050 0x108F (.node (.node (.node (.run 0x109A 0x109D) 0x10A0 0x10C5 .empty) 0x10C7 0x10C7
    (.node (.run 0x10CD 0x10CD) 0x10D0 0x10FA .empty)) 0x10FC 0x1248 (.node (.node
    (.run 0x124A 0x124D) 0x1250 0x1256 .empty) 0x1258 0x1258 (.node (.run 0x125A 0x125D)
    0x1260 0x1288 .empty)))) 0x128A 0x128D (.node (.node (.node (.node (.run 0x1290 0x12B0)
    0x12B2 0x12B5 .empty) 0x12B8 0x12BE (.node (.run 0x12C0 0x12C0) 0x12C2 0x12C5 .empty))
    0x12C8 0x12D6 (.node (.node (.run 0x12D8 0x1310) 0x1312 0x1315 .empty) 0x1318 0x135A (.node
    (.run 0x1380 0x138F) 0x13A0 0x13F5 .empty))) 0x13F8 0x13FD (.node (.node (.node
    (.run 0x1401 0x166C) 0x166F 0x167F .empty) 0x1681 0x169A (.node (.run 0x16A0 0x16EA)
    0x16EE 0x16F8 .empty)) 0x1700 0x1713 (.node (.node (.run 0x171F 0x1733) 0x1740 0x1753 .empty)
    0x1760 0x176C (.node (.run 0x176E 0x1770) 0x1772 0x1773 .empty))))) 0x1780 0x17B3 (.node
    (.node (.node (.node (.node (.run 0x17B6 0x17C8) 0x17D7 0x17D7 .empty) 0x17DC 0x17DC (.node
    (.run 0x1820 0x1878) 0x1880 0x18AA .empty)) 0x18B0 0x18F5 (.node (.node (.run 0x1900 0x191E)
    0x1920 0x192B .empty) 0x1930 0x1938 (.node (.run 0x1950 0x196D) 0x1970 0x1974 .empty)))
    0x1980 0x19AB (.node (.node (.node (.run 0x19B0 0x19C9) 0x1A00 0x1A1B .empty) 0x1A20 0x1A5E
    (.node (.run 0x1A61 0x1A74) 0x1AA7 0x1AA7 .empty)) 0x1ABF 0x1AC0 (.node (.node
    (.run 0x1ACC 0x1ACE) 0x1B00 0x1B33 .empty) 0x1B35 0x1B43 (.node (.run 0x1B45 0x1B4C)
    0x1B80 0x1BA9 .empty)))) 0x1BAC 0x1BAF (.node (.node (.node (.node (.run 0x1BBA 0x1BE5)
    0x1BE7 0x1BF1 .empty) 0x1C00 0x1C36 (.node (.run 0x1C4D 0x1C4F) 0x1C5A 0x1C7D .empty))
    0x1C80 0x1C8A (.node (.node (.run 0x1C90 0x1CBA) 0x1CBD 0x1CBF .empty) 0x1CE9 0x1CEC (.node
    (.run 0x1CEE 0x1CF3) 0x1CF5 0x1CF6 .empty))) 0x1CFA 0x1CFA (.node (.node (.node
    (.run 0x1D00 0x1DBF) 0x1DD3 0x1DF4 .empty) 0x1E00 0x1F15 (.node (.run 0x1F18 0x1F1D)
    0x1F20 0x1F45 .empty)) 0x1F48 0x1F4D (.node (.node (.run 0x1F50 0x1F57) 0x1F59 0x1F59 .empty)
    0x1F5B 0x1F5B (.run 0x1F5D 0x1F5D)))))) 0x1F5F 0x1F7D (.node (.node (.node (.node (.node
    (.node (.run 0x1F80 0x1FB4) 0x1FB6 0x1FBC .empty) 0x1FBE 0x1FBE (.node (.run 0x1FC2 0x1FC4)
    0x1FC6 0x1FCC .empty)) 0x1FD0 0x1FD3 (.node (.node (.run 0x1FD6 0x1FDB) 0x1FE0 0x1FEC .empty)
    0x1FF2 0x1FF4 (.node (.run 0x1FF6 0x1FFC) 0x2071 0x2071 .empty))) 0x207F 0x207F (.node (.node
    (.node (.run 0x2090 0x209C) 0x2102 0x2102 .empty) 0x2107 0x2107 (.node (.run 0x210A 0x2113)
    0x2115 0x2115 .empty)) 0x2119 0x211D (.node (.node (.run 0x2124 0x2124) 0x2126 0x2126 .empty)
    0x2128 0x2128 (.node (.run 0x212A 0x212D) 0x212F 0x2139 .empty)))) 0x213C 0x213F (.node
    (.node (.node (.node (.run 0x2145 0x2149) 0x214E 0x214E .empty) 0x2160 0x2188 (.node
    (.run 0x24B6 0x24E9) 0x2C00 0x2CE4 .empty)) 0x2CEB 0x2CEE (.node (.node (.run 0x2CF2 0x2CF3)
    0x2D00 0x2D25 .empty) 0x2D27 0x2D27 (.node (.run 0x2D2D 0x2D2D) 0x2D30 0x2D67 .empty)))
    0x2D6F 0x2D6F (.node (.node (.node (.run 0x2D80 0x2D96) 0x2DA0 0x2DA6 .empty) 0x2DA8 0x2DAE
    (.node (.run 0x2DB0 0x2DB6) 0x2DB8 0x2DBE .empty)) 0x2DC0 0x2DC6 (.node (.node
    (.run 0x2DC8 0x2DCE) 0x2DD0 0x2DD6 .empty) 0x2DD8 0x2DDE (.node (.run 0x2DE0 0x2DFF)
    0x2E2F 0x2E2F .empty))))) 0x3005 0x3007 (.node (.node (.node (.node (.node
    (.run 0x3021 0x3029) 0x3031 0x3035 .empty) 0x3038 0x303C (.node (.run 0x3041 0x3096)
    0x309D 0x309F .empty)) 0x30A1 0x30FA (.node (.node (.run 0x30FC 0x30FF) 0x3105 0x312F .empty)
    0x3131 0x318E (.node (.run 0x31A0 0x31BF) 0x31F0 0x31FF .empty))) 0x3400 0x4DBF (.node (.node
    (.node (.run 0x4E00 0xA48C) 0xA4D0 0xA4FD .empty) 0xA500 0xA60C (.node (.run 0xA610 0xA61F)
    0xA62A 0xA62B .empty)) 0xA640 0xA66E (.node (.node (.run 0xA674 0xA67B) 0xA67F 0xA6EF .empty)
    0xA717 0xA71F (.node (.run 0xA722 0xA788) 0xA78B 0xA7DC .empty)))) 0xA7F1 0xA805 (.node
    (.node (.node (.node (.run 0xA807 0xA827) 0xA840 0xA873 .empty) 0xA880 0xA8C3 (.node
    (.run 0xA8C5 0xA8C5) 0xA8F2 0xA8F7 .empty)) 0xA8FB 0xA8FB (.node (.node (.run 0xA8FD 0xA8FF)
    0xA90A 0xA92A .empty) 0xA930 0xA952 (.node (.run 0xA960 0xA97C) 0xA980 0xA9B2 .empty)))
    0xA9B4 0xA9BF (.node (.node (.node (.run 0xA9CF 0xA9CF) 0xA9E0 0xA9EF .empty) 0xA9FA 0xA9FE
    (.node (.run 0xAA00 0xAA36) 0xAA40 0xAA4D .empty)) 0xAA60 0xAA76 (.node (.node
    (.run 0xAA7A 0xAABE) 0xAAC0 0xAAC0 .empty) 0xAAC2 0xAAC2 (.run 0xAADB 0xAADD))))))))
    0xAAE0 0xAAEF (.node (.node (.node (.node (.node (.node (.node (.node (.run 0xAAF2 0xAAF5)
    0xAB01 0xAB06 .empty) 0xAB09 0xAB0E (.node (.run 0xAB11 0xAB16) 0xAB20 0xAB26 .empty))
    0xAB28 0xAB2E (.node (.node (.run 0xAB30 0xAB5A) 0xAB5C 0xAB69 .empty) 0xAB70 0xABEA (.node
    (.run 0xAC00 0xD7A3) 0xD7B0 0xD7C6 .empty))) 0xD7CB 0xD7FB (.node (.node (.node
    (.run 0xF900 0xFA6D) 0xFA70 0xFAD9 .empty) 0xFB00 0xFB06 (.node (.run 0xFB13 0xFB17)
    0xFB1D 0xFB28 .empty)) 0xFB2A 0xFB36 (.node (.node (.run 0xFB38 0xFB3C) 0xFB3E 0xFB3E .empty)
    0xFB40 0xFB41 (.node (.run 0xFB43 0xFB44) 0xFB46 0xFBB1 .empty)))) 0xFBD3 0xFD3D (.node
    (.node (.node (.node (.run 0xFD50 0xFD8F) 0xFD92 0xFDC7 .empty) 0xFDF0 0xFDFB (.node
    (.run 0xFE70 0xFE74) 0xFE76 0xFEFC .empty)) 0xFF21 0xFF3A (.node (.node (.run 0xFF41 0xFF5A)
    0xFF66 0xFFBE .empty) 0xFFC2 0xFFC7 (.node (.run 0xFFCA 0xFFCF) 0xFFD2 0xFFD7 .empty)))
    0xFFDA 0xFFDC (.node (.node (.node (.run 0x10000 0x1000B) 0x1000D 0x10026 .empty)
    0x10028 0x1003A (.node (.run 0x1003C 0x1003D) 0x1003F 0x1004D .empty)) 0x10050 0x1005D (.node
    (.node (.run 0x10080 0x100FA) 0x10140 0x10174 .empty) 0x10280 0x1029C (.node
    (.run 0x102A0 0x102D0) 0x10300 0x1031F .empty))))) 0x1032D 0x1034A (.node (.node (.node
    (.node (.node (.run 0x10350 0x1037A) 0x10380 0x1039D .empty) 0x103A0 0x103C3 (.node
    (.run 0x103C8 0x103CF) 0x103D1 0x103D5 .empty)) 0x10400 0x1049D (.node (.node
    (.run 0x104B0 0x104D3) 0x104D8 0x104FB .empty) 0x10500 0x10527 (.node (.run 0x10530 0x10563)
    0x10570 0x1057A .empty))) 0x1057C 0x1058A (.node (.node (.node (.run 0x1058C 0x10592)
    0x10594 0x10595 .empty) 0x10597 0x105A1 (.node (.run 0x105A3 0x105B1) 0x105B3 0x105B9
    .empty)) 0x105BB 0x105BC (.node (.node (.run 0x105C0 0x105F3) 0x10600 0x10736 .empty)
    0x10740 0x10755 (.node (.run 0x10760 0x10767) 0x10780 0x10785 .empty)))) 0x10787 0x107B0
    (.node (.node (.node (.node (.run 0x107B2 0x107BA) 0x10800 0x10805 .empty) 0x10808 0x10808
    (.node (.run 0x1080A 0x10835) 0x10837 0x10838 .empty)) 0x1083C 0x1083C (.node (.node
    (.run 0x1083F 0x10855) 0x10860 0x10876 .empty) 0x10880 0x1089E (.node (.run 0x108E0 0x108F2)
    0x108F4 0x108F5 .empty))) 0x10900 0x10915 (.node (.node (.node (.run 0x10920 0x10939)
    0x10940 0x10959 .empty) 0x10980 0x109B7 (.node (.run 0x109BE 0x109BF) 0x10A00 0x10A03
    .empty)) 0x10A05 0x10A06 (.node (.node (.run 0x10A0C 0x10A13) 0x10A15 0x10A17 .empty)
    0x10A19 0x10A35 (.node (.run 0x10A60 0x10A7C) 0x10A80 0x10A9C .empty)))))) 0x10AC0 0x10AC7
    (.node (.node (.node (.node (.node (.node (.run 0x10AC9 0x10AE4) 0x10B00 0x10B35 .empty)
    0x10B40 0x10B55 (.node (.run 0x10B60 0x10B72) 0x10B80 0x10B91 .empty)) 0x10C00 0x10C48 (.node
    (.node (.run 0x10C80 0x10CB2) 0x10CC0 0x10CF2 .empty) 0x10D00 0x10D27 (.node
    (.run 0x10D4A 0x10D65) 0x10D69 0x10D69 .empty))) 0x10D6F 0x10D85 (.node (.node (.node
    (.run 0x10E80 0x10EA9) 0x10EAB 0x10EAC .empty) 0x10EB0 0x10EB1 (.node (.run 0x10EC2 0x10EC7)
    0x10EFA 0x10EFC .empty)) 0x10F00 0x10F1C (.node (.node (.run 0x10F27 0x10F27) 0x10F30 0x10F45
    .empty) 0x10F70 0x10F81 (.node (.run 0x10FB0 0x10FC4) 0x10FE0 0x10FF6 .empty))))
    0x11000 0x11045 (.node (.node (.node (.node (.run 0x11071 0x11075) 0x11080 0x110B8 .empty)
    0x110C2 0x110C2 (.node (.run 0x110D0 0x110E8) 0x11100 0x11132 .empty)) 0x11144 0x11147 (.node
    (.node (.run 0x11150 0x11172) 0x11176 0x11176 .empty) 0x11180 0x111BF (.node
    (.run 0x111C1 0x111C4) 0x111CE 0x111CF .empty))) 0x111DA 0x111DA (.node (.node (.node
    (.run 0x111DC 0x111DC) 0x11200 0x11211 .empty) 0x11213 0x11234 (.node (.run 0x11237 0x11237)
    0x1123E 0x11241 .empty)) 0x11280 0x11286 (.node (.node (.run 0x11288 0x11288) 0x1128A 0x1128D
    .empty) 0x1128F 0x1129D (.node (.run 0x1129F 0x112A8) 0x112B0 0x112E8 .empty)))))
    0x11300 0x11303 (.node (.node (.node (.node (.node (.run 0x11305 0x1130C) 0x1130F 0x11310
    .empty) 0x11313 0x11328 (.node (.run 0x1132A 0x11330) 0x11332 0x11333 .empty))
    0x11335 0x11339 (.node (.node (.run 0x1133D 0x11344) 0x11347 0x11348 .empty) 0x1134B 0x1134C
    (.node (.run 0x11350 0x11350) 0x11357 0x11357 .empty))) 0x1135D 0x11363 (.node (.node (.node
    (.run 0x11380 0x11389) 0x1138B 0x1138B .empty) 0x1138E 0x1138E (.node (.run 0x11390 0x113B5)
    0x113B7 0x113C0 .empty)) 0x113C2 0x113C2 (.node (.node (.run 0x113C5 0x113C5) 0x113C7 0x113CA
    .empty) 0x113CC 0x113CD (.node (.run 0x113D1 0x113D1) 0x113D3 0x113D3 .empty))))
    0x11400 0x11441 (.node (.node (.node (.node (.run 0x11443 0x11445) 0x11447 0x1144A .empty)
    0x1145F 0x11461 (.node (.run 0x11480 0x114C1) 0x114C4 0x114C5 .empty)) 0x114C7 0x114C7 (.node
    (.node (.run 0x11580 0x115B5) 0x115B8 0x115BE .empty) 0x115D8 0x115DD (.node
    (.run 0x11600 0x1163E) 0x11640 0x11640 .empty))) 0x11644 0x11644 (.node (.node (.node
    (.run 0x11680 0x116B5) 0x116B8 0x116B8 .empty) 0x11700 0x1171A (.node (.run 0x1171D 0x1172A)
    0x11740 0x11746 .empty)) 0x11800 0x11838 (.node (.node (.run 0x118A0 0x118DF) 0x118FF 0x11906
    .empty) 0x11909 0x11909 (.run 0x1190C 0x11913))))))) 0x11915 0x11916 (.node (.node (.node
    (.node (.node (.node (.node (.run 0x11918 0x11935) 0x11937 0x11938 .empty) 0x1193B 0x1193C
    (.node (.run 0x1193F 0x11942) 0x119A0 0x119A7 .empty)) 0x119AA 0x119D7 (.node (.node
    (.run 0x119DA 0x119DF) 0x119E1 0x119E1 .empty) 0x119E3 0x119E4 (.node (.run 0x11A00 0x11A32)
    0x11A35 0x11A3E .empty))) 0x11A50 0x11A97 (.node (.node (.node (.run 0x11A9D 0x11A9D)
    0x11AB0 0x11AF8 .empty) 0x11B60 0x11B67 (.node (.run 0x11BC0 0x11BE0) 0x11C00 0x11C08
    .empty)) 0x11C0A 0x11C36 (.node (.node (.run 0x11C38 0x11C3E) 0x11C40 0x11C40 .empty)
    0x11C72 0x11C8F (.node (.run 0x11C92 0x11CA7) 0x11CA9 0x11CB6 .empty)))) 0x11D00 0x11D06
    (.node (.node (.node (.node (.run 0x11D08 0x11D09) 0x11D0B 0x11D36 .empty) 0x11D3A 0x11D3A
    (.node (.run 0x11D3C 0x11D3D) 0x11D3F 0x11D41 .empty)) 0x11D43 0x11D43 (.node (.node
    (.run 0x11D46 0x11D47) 0x11D60 0x11D65 .empty) 0x11D67 0x11D68 (.node (.run 0x11D6A 0x11D8E)
    0x11D90 0x11D91 .empty))) 0x11D93 0x11D96 (.node (.node (.node (.run 0x11D98 0x11D98)
    0x11DB0 0x11DDB .empty) 0x11EE0 0x11EF6 (.node (.run 0x11F00 0x11F10) 0x11F12 0x11F3A
    .empty)) 0x11F3E 0x11F40 (.node (.node (.run 0x11FB0 0x11FB0) 0x12000 0x12399 .empty)
    0x12400 0x1246E (.node (.run 0x12480 0x12543) 0x12F90 0x12FF0 .empty))))) 0x13000 0x1342F
    (.node (.node (.node (.node (.node (.run 0x13441 0x13446) 0x13460 0x143FA .empty)
    0x14400 0x14646 (.node (.run 0x16100 0x1612E) 0x16800 0x16A38 .empty)) 0x16A40 0x16A5E (.node
    (.node (.run 0x16A70 0x16ABE) 0x16AD0 0x16AED .empty) 0x16B00 0x16B2F (.node
    (.run 0x16B40 0x16B43) 0x16B63 0x16B77 .empty))) 0x16B7D 0x16B8F (.node (.node (.node
    (.run 0x16D40 0x16D6C) 0x16E40 0x16E7F .empty) 0x16EA0 0x16EB8 (.node (.run 0x16EBB 0x16ED3)
    0x16F00 0x16F4A .empty)) 0x16F4F 0x16F87 (.node (.node (.run 0x16F8F 0x16F9F) 0x16FE0 0x16FE1
    .empty) 0x16FE3 0x16FE3 (.node (.run 0x16FF0 0x16FF6) 0x17000 0x18CD5 .empty))))
    0x18CFF 0x18D1E (.node (.node (.node (.node (.run 0x18D80 0x18DF2) 0x1AFF0 0x1AFF3 .empty)
    0x1AFF5 0x1AFFB (.node (.run 0x1AFFD 0x1AFFE) 0x1B000 0x1B122 .empty)) 0x1B132 0x1B132 (.node
    (.node (.run 0x1B150 0x1B152) 0x1B155 0x1B155 .empty) 0x1B164 0x1B167 (.node
    (.run 0x1B170 0x1B2FB) 0x1BC00 0x1BC6A .empty))) 0x1BC70 0x1BC7C (.node (.node (.node
    (.run 0x1BC80 0x1BC88) 0x1BC90 0x1BC99 .empty) 0x1BC9E 0x1BC9E (.node (.run 0x1D400 0x1D454)
    0x1D456 0x1D49C .empty)) 0x1D49E 0x1D49F (.node (.node (.run 0x1D4A2 0x1D4A2) 0x1D4A5 0x1D4A6
    .empty) 0x1D4A9 0x1D4AC (.run 0x1D4AE 0x1D4B9)))))) 0x1D4BB 0x1D4BB (.node (.node (.node
    (.node (.node (.node (.run 0x1D4BD 0x1D4C3) 0x1D4C5 0x1D505 .empty) 0x1D507 0x1D50A (.node
    (.run 0x1D50D 0x1D514) 0x1D516 0x1D51C .empty)) 0x1D51E 0x1D539 (.node (.node
    (.run 0x1D53B 0x1D53E) 0x1D540 0x1D544 .empty) 0x1D546 0x1D546 (.node (.run 0x1D54A 0x1D550)
    0x1D552 0x1D6A5 .empty))) 0x1D6A8 0x1D6C0 (.node (.node (.node (.run 0x1D6C2 0x1D6DA)
    0x1D6DC 0x1D6FA .empty) 0x1D6FC 0x1D714 (.node (.run 0x1D716 0x1D734) 0x1D736 0x1D74E
    .empty)) 0x1D750 0x1D76E (.node (.node (.run 0x1D770 0x1D788) 0x1D78A 0x1D7A8 .empty)
    0x1D7AA 0x1D7C2 (.node (.run 0x1D7C4 0x1D7CB) 0x1DF00 0x1DF1E .empty)))) 0x1DF25 0x1DF2A
    (.node (.node (.node (.node (.run 0x1E000 0x1E006) 0x1E008 0x1E018 .empty) 0x1E01B 0x1E021
    (.node (.run 0x1E023 0x1E024) 0x1E026 0x1E02A .empty)) 0x1E030 0x1E06D (.node (.node
    (.run 0x1E08F 0x1E08F) 0x1E100 0x1E12C .empty) 0x1E137 0x1E13D (.node (.run 0x1E14E 0x1E14E)
    0x1E290 0x1E2AD .empty))) 0x1E2C0 0x1E2EB (.node (.node (.node (.run 0x1E4D0 0x1E4EB)
    0x1E5D0 0x1E5ED .empty) 0x1E5F0 0x1E5F0 (.node (.run 0x1E6C0 0x1E6DE) 0x1E6E0 0x1E6F5
    .empty)) 0x1E6FE 0x1E6FF (.node (.node (.run 0x1E7E0 0x1E7E6) 0x1E7E8 0x1E7EB .empty)
    0x1E7ED 0x1E7EE (.node (.run 0x1E7F0 0x1E7FE) 0x1E800 0x1E8C4 .empty))))) 0x1E900 0x1E943
    (.node (.node (.node (.node (.node (.run 0x1E947 0x1E947) 0x1E94B 0x1E94B .empty)
    0x1EE00 0x1EE03 (.node (.run 0x1EE05 0x1EE1F) 0x1EE21 0x1EE22 .empty)) 0x1EE24 0x1EE24 (.node
    (.node (.run 0x1EE27 0x1EE27) 0x1EE29 0x1EE32 .empty) 0x1EE34 0x1EE37 (.node
    (.run 0x1EE39 0x1EE39) 0x1EE3B 0x1EE3B .empty))) 0x1EE42 0x1EE42 (.node (.node (.node
    (.run 0x1EE47 0x1EE47) 0x1EE49 0x1EE49 .empty) 0x1EE4B 0x1EE4B (.node (.run 0x1EE4D 0x1EE4F)
    0x1EE51 0x1EE52 .empty)) 0x1EE54 0x1EE54 (.node (.node (.run 0x1EE57 0x1EE57) 0x1EE59 0x1EE59
    .empty) 0x1EE5B 0x1EE5B (.node (.run 0x1EE5D 0x1EE5D) 0x1EE5F 0x1EE5F .empty))))
    0x1EE61 0x1EE62 (.node (.node (.node (.node (.run 0x1EE64 0x1EE64) 0x1EE67 0x1EE6A .empty)
    0x1EE6C 0x1EE72 (.node (.run 0x1EE74 0x1EE77) 0x1EE79 0x1EE7C .empty)) 0x1EE7E 0x1EE7E (.node
    (.node (.run 0x1EE80 0x1EE89) 0x1EE8B 0x1EE9B .empty) 0x1EEA1 0x1EEA3 (.node
    (.run 0x1EEA5 0x1EEA9) 0x1EEAB 0x1EEBB .empty))) 0x1F130 0x1F149 (.node (.node (.node
    (.run 0x1F150 0x1F169) 0x1F170 0x1F189 .empty) 0x20000 0x2A6DF (.node (.run 0x2A700 0x2B81D)
    0x2B820 0x2CEAD .empty)) 0x2CEB0 0x2EBE0 (.node (.node (.run 0x2EBF0 0x2EE5D) 0x2F800 0x2FA1D
    .empty) 0x30000 0x3134A (.run 0x31350 0x33479))))))))

end PerlRegex.Unicode
