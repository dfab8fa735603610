import PerlRegex.Main
import PerlRegex.Quote
import PerlRegex.Split
import PerlRegex.Proofs.Interpretation
import PerlRegex.Proofs.Advancing
import PerlRegex.Proofs.Machine.Undoing
import PerlRegex.Proofs.Machine.Following
import PerlRegex.Proofs.Machine.Stepping
import PerlRegex.Proofs.Machine.Bodies
import PerlRegex.Proofs.CaseFolding
import PerlRegex.Proofs.Groups
import PerlRegex.Proofs.Machine.Simulation
import PerlRegex.Proofs.Pattern.Numbering
import PerlRegex.Proofs.Machine.Decision
import PerlRegex.Proofs.Execution
import PerlRegex.Proofs.Regex
import PerlRegex.Proofs.Reuse
import PerlRegex.Proofs.Utf8.Encoding
import PerlRegex.Proofs.Utf8.WellFormed
import PerlRegex.Proofs.Utf8.Texts
import PerlRegex.Proofs.Template
import PerlRegex.Proofs.Characters
import PerlRegex.Proofs.Between
import PerlRegex.Proofs.Study.MinLength
import PerlRegex.Proofs.Study.StartKind
import PerlRegex.Proofs.Study.FirstBytes
import PerlRegex.Proofs.Study.Plans
import PerlRegex.Proofs.Study.Unchecked
import PerlRegex.Proofs.Continuing.Text
import PerlRegex.Proofs.Continuing.Agreement
import PerlRegex.Proofs.Continuing.Tests
import PerlRegex.Proofs.Continuing.Trees
import PerlRegex.Proofs.Continuing.Finality
import PerlRegex.Proofs.Machine.Safety
import PerlRegex.Proofs.Safety
import PerlRegex.Proofs.Matcher
import PerlRegex.Proofs.Machine.Modes
import PerlRegex.Proofs.Machine.Effects
import PerlRegex.Proofs.Machine.Budgets
import PerlRegex.Proofs.Machine.Storage
import PerlRegex.Proofs.Budgets
import PerlRegex.Proofs.PartialModes
import PerlRegex.Proofs.Termination
import PerlRegex.Proofs.CaseFolding.Families
import PerlRegex.Proofs.CaseFolding.Agreement
import PerlRegex.Proofs.Caseless
import PerlRegex.Proofs.Pattern.Placement
import PerlRegex.Proofs.Pattern.Parsing
import PerlRegex.Proofs.Scan
import PerlRegex.Proofs.Pattern.Words
import PerlRegex.Proofs.Pattern.Overflow
import PerlRegex.Proofs.Pattern.Marks
import PerlRegex.Proofs.Pattern.Bookkeeping
import PerlRegex.Proofs.Transparency.Texts
import PerlRegex.Proofs.Transparency.Patterns
import PerlRegex.Proofs.Transparency.Programs
import PerlRegex.Proofs.Transparency.Machine
import PerlRegex.Proofs.Transparency
import PerlRegex.Proofs.Splicing
import PerlRegex.Proofs.Splitting
import PerlRegex.Proofs.Expansion
import PerlRegex.Proofs.Literals
import PerlRegex.Proofs.Pattern.Quoting
import PerlRegex.Proofs.Unplanned
import PerlRegex.Proofs.Quoting
import PerlRegex.Proofs.LeadingFlags
import PerlRegex.Proofs.ClassText
import PerlRegex.Proofs.CaselessClasses
import PerlRegex.Proofs.Width
import PerlRegex.Proofs.Machine.Positions
import PerlRegex.Proofs.Machine.Placing
import PerlRegex.Proofs.Lookbehind
import PerlRegex.Proofs.LineEnds
import PerlRegex.Proofs.Pattern.Literals
import PerlRegex.Proofs.LeadingText
import PerlRegex.Proofs.Capturing.Trees
import PerlRegex.Proofs.Capturing.Searches
import PerlRegex.Proofs.Capturing.Reading
import PerlRegex.Proofs.Capturing
import PerlRegex.Proofs.Machine.Registers
import PerlRegex.Proofs.Forward.Text
import PerlRegex.Proofs.Forward.States
import PerlRegex.Proofs.Forward.Machine
import PerlRegex.Proofs.Forward
import PerlRegex.Proofs.Utf8.Malformed
import PerlRegex.Proofs.Utf8.Directions
import PerlRegex.Proofs.CaseFolding.Closure
import PerlRegex.Proofs.Machine.Stack
import PerlRegex.Proofs.Machine.Calls
