import DelegatedFetch.Text.Ranges

/-!
# Letters of domain names

A domain name is written in one form before it is compared. Capital letters
become small ones, wide and circled forms become plain ones, the full stops of
other scripts become a dot, and characters without a shape of their own are
left out. A letter and an accent that follows it become the accented letter.

The tables cover the Latin, Greek, Cyrillic, Armenian and Georgian scripts;
letters of scripts without capitals stand for themselves.
-/

namespace DelegatedFetch.Domain

/-- The characters from `first` to `last`, `stride` apart; they become those from `target` on. -/
structure LetterRun where
  first : Nat
  last : Nat
  stride : Nat
  target : Nat

def LetterRun.replace? (r : LetterRun) (c : Char) : Option Char :=
  if r.first ≤ c.toNat ∧ c.toNat ≤ r.last ∧ (c.toNat - r.first) % r.stride = 0 then
    some (Char.ofNat (r.target + (c.toNat - r.first)))
  else none

/-- Capital letters beyond ASCII, and wide, raised and circled forms. -/
def letterRuns : List LetterRun :=
  [⟨0xAA, 0xAA, 1, 0x61⟩, ⟨0xB2, 0xB2, 1, 0x32⟩, ⟨0xB3, 0xB3, 1, 0x33⟩, ⟨0xB5, 0xB5, 1, 0x3BC⟩,
   ⟨0xB9, 0xB9, 1, 0x31⟩, ⟨0xBA, 0xBA, 1, 0x6F⟩, ⟨0xC0, 0xD6, 1, 0xE0⟩, ⟨0xD8, 0xDE, 1, 0xF8⟩,
   ⟨0x100, 0x12E, 2, 0x101⟩, ⟨0x134, 0x136, 2, 0x135⟩, ⟨0x139, 0x13D, 2, 0x13A⟩,
   ⟨0x141, 0x147, 2, 0x142⟩, ⟨0x14A, 0x176, 2, 0x14B⟩, ⟨0x178, 0x178, 1, 0xFF⟩,
   ⟨0x179, 0x17D, 2, 0x17A⟩, ⟨0x17F, 0x17F, 1, 0x73⟩, ⟨0x181, 0x181, 1, 0x253⟩,
   ⟨0x182, 0x184, 2, 0x183⟩, ⟨0x186, 0x186, 1, 0x254⟩, ⟨0x187, 0x187, 1, 0x188⟩,
   ⟨0x189, 0x18A, 1, 0x256⟩, ⟨0x18B, 0x18B, 1, 0x18C⟩, ⟨0x18E, 0x18E, 1, 0x1DD⟩,
   ⟨0x18F, 0x18F, 1, 0x259⟩, ⟨0x190, 0x190, 1, 0x25B⟩, ⟨0x191, 0x191, 1, 0x192⟩,
   ⟨0x193, 0x193, 1, 0x260⟩, ⟨0x194, 0x194, 1, 0x263⟩, ⟨0x196, 0x196, 1, 0x269⟩,
   ⟨0x197, 0x197, 1, 0x268⟩, ⟨0x198, 0x198, 1, 0x199⟩, ⟨0x19C, 0x19C, 1, 0x26F⟩,
   ⟨0x19D, 0x19D, 1, 0x272⟩, ⟨0x19F, 0x19F, 1, 0x275⟩, ⟨0x1A0, 0x1A4, 2, 0x1A1⟩,
   ⟨0x1A6, 0x1A6, 1, 0x280⟩, ⟨0x1A7, 0x1A7, 1, 0x1A8⟩, ⟨0x1A9, 0x1A9, 1, 0x283⟩,
   ⟨0x1AC, 0x1AC, 1, 0x1AD⟩, ⟨0x1AE, 0x1AE, 1, 0x288⟩, ⟨0x1AF, 0x1AF, 1, 0x1B0⟩,
   ⟨0x1B1, 0x1B2, 1, 0x28A⟩, ⟨0x1B3, 0x1B5, 2, 0x1B4⟩, ⟨0x1B7, 0x1B7, 1, 0x292⟩,
   ⟨0x1B8, 0x1B8, 1, 0x1B9⟩, ⟨0x1BC, 0x1BC, 1, 0x1BD⟩, ⟨0x1CD, 0x1DB, 2, 0x1CE⟩,
   ⟨0x1DE, 0x1EE, 2, 0x1DF⟩, ⟨0x1F4, 0x1F4, 1, 0x1F5⟩, ⟨0x1F6, 0x1F6, 1, 0x195⟩,
   ⟨0x1F7, 0x1F7, 1, 0x1BF⟩, ⟨0x1F8, 0x21E, 2, 0x1F9⟩, ⟨0x220, 0x220, 1, 0x19E⟩,
   ⟨0x222, 0x232, 2, 0x223⟩, ⟨0x23A, 0x23A, 1, 0x2C65⟩, ⟨0x23B, 0x23B, 1, 0x23C⟩,
   ⟨0x23D, 0x23D, 1, 0x19A⟩, ⟨0x23E, 0x23E, 1, 0x2C66⟩, ⟨0x241, 0x241, 1, 0x242⟩,
   ⟨0x243, 0x243, 1, 0x180⟩, ⟨0x244, 0x244, 1, 0x289⟩, ⟨0x245, 0x245, 1, 0x28C⟩,
   ⟨0x246, 0x24E, 2, 0x247⟩, ⟨0x370, 0x372, 2, 0x371⟩, ⟨0x376, 0x376, 1, 0x377⟩,
   ⟨0x37F, 0x37F, 1, 0x3F3⟩, ⟨0x386, 0x386, 1, 0x3AC⟩, ⟨0x388, 0x38A, 1, 0x3AD⟩,
   ⟨0x38C, 0x38C, 1, 0x3CC⟩, ⟨0x38E, 0x38F, 1, 0x3CD⟩, ⟨0x391, 0x3A1, 1, 0x3B1⟩,
   ⟨0x3A3, 0x3AB, 1, 0x3C3⟩, ⟨0x3CF, 0x3CF, 1, 0x3D7⟩, ⟨0x3D8, 0x3EE, 2, 0x3D9⟩,
   ⟨0x3F4, 0x3F4, 1, 0x3B8⟩, ⟨0x3F7, 0x3F7, 1, 0x3F8⟩, ⟨0x3FA, 0x3FA, 1, 0x3FB⟩,
   ⟨0x3FD, 0x3FF, 1, 0x37B⟩, ⟨0x400, 0x40F, 1, 0x450⟩, ⟨0x410, 0x42F, 1, 0x430⟩,
   ⟨0x460, 0x480, 2, 0x461⟩, ⟨0x48A, 0x4BE, 2, 0x48B⟩, ⟨0x4C0, 0x4C0, 1, 0x4CF⟩,
   ⟨0x4C1, 0x4CD, 2, 0x4C2⟩, ⟨0x4D0, 0x52E, 2, 0x4D1⟩, ⟨0x531, 0x556, 1, 0x561⟩,
   ⟨0x10A0, 0x10C5, 1, 0x2D00⟩, ⟨0x10C7, 0x10C7, 1, 0x2D27⟩, ⟨0x10CD, 0x10CD, 1, 0x2D2D⟩,
   ⟨0x1E00, 0x1E94, 2, 0x1E01⟩, ⟨0x1E9E, 0x1E9E, 1, 0xDF⟩, ⟨0x1EA0, 0x1EFE, 2, 0x1EA1⟩,
   ⟨0x1F08, 0x1F0F, 1, 0x1F00⟩, ⟨0x1F18, 0x1F1D, 1, 0x1F10⟩, ⟨0x1F28, 0x1F2F, 1, 0x1F20⟩,
   ⟨0x1F38, 0x1F3F, 1, 0x1F30⟩, ⟨0x1F48, 0x1F4D, 1, 0x1F40⟩, ⟨0x1F59, 0x1F5F, 2, 0x1F51⟩,
   ⟨0x1F68, 0x1F6F, 1, 0x1F60⟩, ⟨0x1FB8, 0x1FB9, 1, 0x1FB0⟩, ⟨0x1FBA, 0x1FBA, 1, 0x1F70⟩,
   ⟨0x1FC8, 0x1FCA, 2, 0x1F72⟩, ⟨0x1FD8, 0x1FD9, 1, 0x1FD0⟩, ⟨0x1FDA, 0x1FDA, 1, 0x1F76⟩,
   ⟨0x1FE8, 0x1FE9, 1, 0x1FE0⟩, ⟨0x1FEA, 0x1FEA, 1, 0x1F7A⟩, ⟨0x1FEC, 0x1FEC, 1, 0x1FE5⟩,
   ⟨0x1FF8, 0x1FF8, 1, 0x1F78⟩, ⟨0x1FFA, 0x1FFA, 1, 0x1F7C⟩, ⟨0x2126, 0x2126, 1, 0x3C9⟩,
   ⟨0x212A, 0x212A, 1, 0x6B⟩, ⟨0x212B, 0x212B, 1, 0xE5⟩, ⟨0x2132, 0x2132, 1, 0x214E⟩,
   ⟨0x2183, 0x2183, 1, 0x2184⟩, ⟨0x2460, 0x2468, 1, 0x31⟩, ⟨0x24B6, 0x24CF, 1, 0x61⟩,
   ⟨0x24D0, 0x24E9, 1, 0x61⟩, ⟨0x3002, 0x3002, 1, 0x2E⟩, ⟨0xFF01, 0xFF20, 1, 0x21⟩,
   ⟨0xFF21, 0xFF3A, 1, 0x61⟩, ⟨0xFF3B, 0xFF5E, 1, 0x5B⟩, ⟨0xFF61, 0xFF61, 1, 0x2E⟩]

def letterSequences : List (Char × String) :=
  [('İ', "i\u0307"), ('Ĳ', "ij"), ('ĳ', "ij"), ('Ŀ', "l·"), ('ŀ', "l·"), ('Ǆ', "dž"), ('ǅ', "dž"),
   ('ǆ', "dž"), ('Ǉ', "lj"), ('ǈ', "lj"), ('ǉ', "lj"), ('Ǌ', "nj"), ('ǋ', "nj"), ('ǌ', "nj"),
   ('Ǳ', "dz"), ('ǲ', "dz"), ('ǳ', "dz"), ('™', "tm"), ('ﬀ', "ff"), ('ﬁ', "fi"), ('ﬂ', "fl"),
   ('ﬃ', "ffi"), ('ﬄ', "ffl"), ('ﬅ', "st"), ('ﬆ', "st")]

/-- Soft hyphens, joints of words, selectors of variants: they have no shape and are left out. -/
def isShapeless : Char → Bool :=
  inRanges [(0xAD, 0xAD), (0x34F, 0x34F), (0x180B, 0x180F), (0x200B, 0x200B), (0x2060, 0x2064),
    (0xFE00, 0xFE0F), (0xFEFF, 0xFEFF), (0xE0100, 0xE01EF)]

/-- Controls, spaces, accents without a letter, marks of direction, values that are no letters. -/
def isUnwritable : Char → Bool :=
  inRanges [(0x80, 0xA0), (0xA8, 0xA8), (0xAF, 0xAF), (0xB4, 0xB4), (0xB8, 0xB8), (0x2D8, 0x2DD),
    (0x61C, 0x61C), (0x1680, 0x1680), (0x2000, 0x200A), (0x200C, 0x200F), (0x2028, 0x202F),
    (0x205F, 0x205F), (0x2066, 0x206F), (0x3000, 0x3000), (0xE000, 0xF8FF), (0xFDD0, 0xFDEF),
    (0xFFF0, 0xFFFF), (0xE0000, 0xE00FF), (0xE01F0, 0x10FFFF)]

def foldLetter (c : Char) : List Char :=
  if c.toNat < 128 then [c.toLower]
  else if isShapeless c then []
  else
    match letterSequences.lookup c with
    | some s => s.toList
    | none => [(letterRuns.findSome? (·.replace? c)).getD c]

/-- For each accent, letters without it and with it in turn. -/
def accents : List (Nat × String) :=
  [(0x300, "aàeèiìoòuùüǜnǹеѐиѝēḕōṑwẁâầăằêềôồơờưừyỳ"),
   (0x301, "aáeéiíoóuúyýcćlĺnńrŕsśzźüǘgǵåǻæǽøǿϊΐαάεέηήιίϋΰοόυύωώгѓкќ" ++
     "çḉēḗïḯkḱmḿõṍōṓpṕũṹwẃâấăắêếôốơớưứ"),
   (0x302, "aâeêiîoôuûcĉgĝhĥjĵsŝwŵyŷzẑạậẹệọộ"),
   (0x303, "aãnñoõiĩuũvṽâẫăẵeẽêễôỗơỡưữyỹ"),
   (0x304, "aāeēiīoōuūüǖäǟȧǡæǣǫǭöȫõȭȯȱyȳиӣуӯgḡḷḹṛṝ"),
   (0x306, "aăeĕgğiĭoŏuŭийуўжӂаӑеӗȩḝạặ"),
   (0x307, "cċeėgġzżaȧoȯbḃdḋfḟhḣmṁnṅpṗrṙsṡśṥšṧṣṩtṫwẇxẋyẏ"),
   (0x308, "aäeëiïoöuüyÿιϊυϋеёіїаӓәӛжӝзӟиӥоӧөӫэӭуӱчӵыӹhḧõṏūṻwẅxẍtẗ"),
   (0x309, "aảâẩăẳeẻêểiỉoỏôổơởuủưửyỷ"),
   (0x30A, "aåuůwẘyẙ"),
   (0x30B, "oőuűуӳ"),
   (0x30C, "cčdďeělľnňrřsštťzžaǎiǐoǒuǔüǚgǧkǩʒǯjǰhȟ"),
   (0x30F, "aȁeȅiȉoȍrȑuȕѵѷ"),
   (0x311, "aȃeȇiȋoȏrȓuȗ"),
   (0x31B, "oơuư"),
   (0x323, "bḅdḍhḥkḳlḷmṃnṇrṛsṣtṭvṿwẉzẓaạeẹiịoọơợuụưựyỵ"),
   (0x324, "uṳ"),
   (0x325, "aḁ"),
   (0x326, "sștț"),
   (0x327, "cçgģkķlļnņrŗsştţeȩdḑhḩ"),
   (0x328, "aąeęiįuųoǫ"),
   (0x32D, "dḓeḙlḽnṋtṱuṷ"),
   (0x32E, "hḫ"),
   (0x330, "eḛiḭuṵ"),
   (0x331, "bḇdḏkḵlḻnṉrṟtṯzẕhẖ")]

def accented? (c : Char) : List Char → Option Char
  | plain :: withAccent :: rest => if plain = c then some withAccent else accented? c rest
  | _ => none

def compose? (c accent : Char) : Option Char := do
  accented? c (← accents.lookup accent.toNat).toList

/-- Puts each accent onto the letter before it. `done` is what is written, last first. -/
def composeAll (done : List Char) : List Char → List Char
  | [] => done.reverse
  | c :: rest =>
    match done with
    | [] => composeAll [c] rest
    | d :: before =>
      match compose? d c with
      | some e => composeAll (e :: before) rest
      | none => composeAll (c :: d :: before) rest

def foldName (name : List Char) : List Char := composeAll [] (name.flatMap foldLetter)

/-- Whether a character is an accent, which cannot begin a label. -/
def isAccent : Char → Bool := inRanges [(0x300, 0x36F), (0x483, 0x489), (0x20D0, 0x20F0)]

end DelegatedFetch.Domain
