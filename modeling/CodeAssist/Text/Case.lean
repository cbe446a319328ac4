import CodeAssist.Text.Mark

/-!
Lower case.

`lower` is the full Unicode mapping: one character may become two, and a capital sigma at the end
of a word becomes the final form. `asciiLower` touches the letters `A` to `Z` only.
-/

namespace CodeAssist.Text

/-! ## 1. The tables -/

/-- A run of capitals: those at `first`, `first + step`, …, `last` map to themselves plus
`shift`. -/
structure CapitalRun where
  first : Nat
  last : Nat
  step : Nat
  shift : Int

def capitalRuns : List CapitalRun :=
  [⟨0xc0, 0xd6, 1, 32⟩, ⟨0xd8, 0xde, 1, 32⟩, ⟨0x100, 0x12e, 2, 1⟩, ⟨0x132, 0x136, 2, 1⟩,
   ⟨0x139, 0x147, 2, 1⟩, ⟨0x14a, 0x176, 2, 1⟩, ⟨0x179, 0x17d, 2, 1⟩, ⟨0x182, 0x184, 2, 1⟩,
   ⟨0x189, 0x18a, 1, 205⟩, ⟨0x1a0, 0x1a4, 2, 1⟩, ⟨0x1b1, 0x1b2, 1, 217⟩, ⟨0x1b3, 0x1b5, 2, 1⟩,
   ⟨0x1cb, 0x1db, 2, 1⟩, ⟨0x1de, 0x1ee, 2, 1⟩, ⟨0x1f2, 0x1f4, 2, 1⟩, ⟨0x1f8, 0x21e, 2, 1⟩,
   ⟨0x222, 0x232, 2, 1⟩, ⟨0x246, 0x24e, 2, 1⟩, ⟨0x370, 0x372, 2, 1⟩, ⟨0x388, 0x38a, 1, 37⟩,
   ⟨0x38e, 0x38f, 1, 63⟩, ⟨0x391, 0x3a1, 1, 32⟩, ⟨0x3a3, 0x3ab, 1, 32⟩, ⟨0x3d8, 0x3ee, 2, 1⟩,
   ⟨0x3fd, 0x3ff, 1, -130⟩, ⟨0x400, 0x40f, 1, 80⟩, ⟨0x410, 0x42f, 1, 32⟩, ⟨0x460, 0x480, 2, 1⟩,
   ⟨0x48a, 0x4be, 2, 1⟩, ⟨0x4c1, 0x4cd, 2, 1⟩, ⟨0x4d0, 0x52e, 2, 1⟩, ⟨0x531, 0x556, 1, 48⟩,
   ⟨0x10a0, 0x10c5, 1, 7264⟩, ⟨0x13a0, 0x13ef, 1, 38864⟩, ⟨0x13f0, 0x13f5, 1, 8⟩,
   ⟨0x1c90, 0x1cba, 1, -3008⟩, ⟨0x1cbd, 0x1cbf, 1, -3008⟩, ⟨0x1e00, 0x1e94, 2, 1⟩,
   ⟨0x1ea0, 0x1efe, 2, 1⟩, ⟨0x1f08, 0x1f0f, 1, -8⟩, ⟨0x1f18, 0x1f1d, 1, -8⟩,
   ⟨0x1f28, 0x1f2f, 1, -8⟩, ⟨0x1f38, 0x1f3f, 1, -8⟩, ⟨0x1f48, 0x1f4d, 1, -8⟩,
   ⟨0x1f59, 0x1f5f, 2, -8⟩, ⟨0x1f68, 0x1f6f, 1, -8⟩, ⟨0x1f88, 0x1f8f, 1, -8⟩,
   ⟨0x1f98, 0x1f9f, 1, -8⟩, ⟨0x1fa8, 0x1faf, 1, -8⟩, ⟨0x1fb8, 0x1fb9, 1, -8⟩,
   ⟨0x1fba, 0x1fbb, 1, -74⟩, ⟨0x1fc8, 0x1fcb, 1, -86⟩, ⟨0x1fd8, 0x1fd9, 1, -8⟩,
   ⟨0x1fda, 0x1fdb, 1, -100⟩, ⟨0x1fe8, 0x1fe9, 1, -8⟩, ⟨0x1fea, 0x1feb, 1, -112⟩,
   ⟨0x1ff8, 0x1ff9, 1, -128⟩, ⟨0x1ffa, 0x1ffb, 1, -126⟩, ⟨0x2160, 0x216f, 1, 16⟩,
   ⟨0x24b6, 0x24cf, 1, 26⟩, ⟨0x2c00, 0x2c2f, 1, 48⟩, ⟨0x2c67, 0x2c6b, 2, 1⟩,
   ⟨0x2c7e, 0x2c7f, 1, -10815⟩, ⟨0x2c80, 0x2ce2, 2, 1⟩, ⟨0x2ceb, 0x2ced, 2, 1⟩,
   ⟨0xa640, 0xa66c, 2, 1⟩, ⟨0xa680, 0xa69a, 2, 1⟩, ⟨0xa722, 0xa72e, 2, 1⟩, ⟨0xa732, 0xa76e, 2, 1⟩,
   ⟨0xa779, 0xa77b, 2, 1⟩, ⟨0xa77e, 0xa786, 2, 1⟩, ⟨0xa790, 0xa792, 2, 1⟩, ⟨0xa796, 0xa7a8, 2, 1⟩,
   ⟨0xa7b4, 0xa7c2, 2, 1⟩, ⟨0xa7c7, 0xa7c9, 2, 1⟩, ⟨0xa7cc, 0xa7da, 2, 1⟩, ⟨0xff21, 0xff3a, 1, 32⟩,
   ⟨0x10400, 0x10427, 1, 40⟩, ⟨0x104b0, 0x104d3, 1, 40⟩, ⟨0x10570, 0x1057a, 1, 39⟩,
   ⟨0x1057c, 0x1058a, 1, 39⟩, ⟨0x1058c, 0x10592, 1, 39⟩, ⟨0x10594, 0x10595, 1, 39⟩,
   ⟨0x10c80, 0x10cb2, 1, 64⟩, ⟨0x10d50, 0x10d65, 1, 32⟩, ⟨0x118a0, 0x118bf, 1, 32⟩,
   ⟨0x16e40, 0x16e5f, 1, 32⟩, ⟨0x16ea0, 0x16eb8, 1, 27⟩, ⟨0x1e900, 0x1e921, 1, 34⟩]

/-- The capitals that are in no run, each before its lower case. -/
def capitalPairs : List String :=
  ["ŸÿƁɓƆɔƇƈƋƌƎǝƏəƐɛƑƒƓɠƔɣƖɩƗɨƘƙƜɯƝɲƟɵƦʀƧƨƩʃƬƭƮʈƯưƷʒƸƹƼƽǄǆǅǆǇǉǈǉǊǌǱǳǶƕǷƿȠƞȺⱥȻȼȽƚȾⱦɁɂɃƀɄʉɅʌͶͷͿϳ",
   "ΆάΌόϏϗϴθϷϸϹϲϺϻӀӏჇⴧჍⴭ\u1c89\u1c8aẞßᾼᾳῌῃῬῥῼῳΩωKkÅåℲⅎↃↄⱠⱡⱢɫⱣᵽⱤɽⱭɑⱮɱⱯɐⱰɒⱲⱳⱵⱶⳲⳳꝽᵹꞋꞌꞍɥꞪɦꞫɜꞬɡꞭɬꞮɪꞰʞꞱʇꞲʝꞳꭓꟄꞔ",
   "ꟅʂꟆᶎ\ua7cbɤ\ua7dcƛꟵꟶ"]

def casedRanges : List (Nat × Nat) :=
  spacedRanges 0 [170, 0, 10, 0, 4, 0, 5, 22, 1, 30, 1, 194, 1, 3, 4, 207, 2, 34, 7, 1, 30, 4, 96,
    0, 42, 3, 2, 1, 2, 3, 1, 0, 6, 0, 1, 2, 1, 0, 1, 19, 1, 82, 1, 138, 8, 165, 1, 37, 9, 40, 2839,
    37, 1, 0, 5, 0, 2, 42, 1, 3, 672, 85, 2, 5, 2178, 10, 5, 42, 2, 2, 64, 191, 64, 277, 2, 5, 2,
    37, 2, 5, 2, 7, 1, 0, 1, 0, 1, 0, 1, 30, 2, 52, 1, 6, 1, 0, 3, 2, 1, 6, 3, 3, 2, 5, 4, 12, 5, 2,
    1, 6, 116, 0, 13, 0, 16, 12, 101, 0, 4, 0, 2, 9, 1, 0, 3, 4, 6, 0, 1, 0, 1, 0, 1, 3, 1, 5, 4, 0,
    2, 3, 5, 4, 4, 0, 17, 31, 3, 1, 817, 51, 1814, 228, 6, 3, 3, 1, 12, 37, 1, 0, 5, 0, 30994, 45,
    18, 29, 132, 101, 3, 3, 1, 76, 20, 5, 1, 2, 821, 42, 1, 13, 6, 79, 20288, 6, 12, 4, 1033, 25, 6,
    25, 1189, 79, 96, 35, 4, 35, 116, 10, 1, 14, 1, 6, 1, 1, 1, 10, 1, 14, 1, 6, 1, 1, 451, 0, 2, 2,
    1, 41, 1, 8, 1221, 50, 13, 50, 93, 21, 10, 21, 2842, 63, 21856, 63, 32, 24, 2, 24, 25900, 84, 1,
    70, 1, 1, 2, 0, 2, 1, 2, 3, 1, 11, 1, 0, 1, 6, 1, 64, 1, 3, 2, 7, 1, 6, 1, 27, 1, 3, 1, 4, 1, 0,
    3, 6, 1, 339, 2, 24, 1, 24, 1, 30, 1, 24, 1, 30, 1, 24, 1, 30, 1, 24, 1, 30, 1, 24, 1, 7, 1844,
    9, 1, 19, 6, 5, 261, 61, 2194, 67, 2028, 25, 6, 25, 6, 25]

/-- Characters beyond ASCII that are ignored when looking for a cased neighbour, beside the
nonspacing marks. -/
def caseIgnorableRanges : List (Nat × Nat) :=
  spacedRanges 0 [168, 0, 4, 0, 1, 0, 4, 0, 2, 1, 503, 79, 116, 1, 4, 0, 9, 1, 1, 0, 465, 0, 5, 0,
    148, 0, 11, 5, 22, 0, 35, 0, 156, 0, 7, 1, 40, 0, 228, 1, 4, 0, 31, 14, 95, 0, 7, 1, 55, 25,
    142, 0, 1236, 0, 127, 0, 565, 0, 1754, 0, 54, 0, 52, 0, 611, 0, 464, 5, 174, 62, 13, 0, 34, 36,
    509, 0, 1, 2, 11, 2, 13, 2, 13, 2, 13, 1, 12, 4, 8, 1, 10, 0, 2, 0, 2, 4, 49, 4, 1, 9, 1, 0, 13,
    0, 16, 12, 3039, 1, 241, 0, 191, 0, 469, 0, 43, 4, 5, 0, 95, 3, 93, 2, 28438, 0, 1250, 5, 270,
    0, 114, 0, 28, 1, 98, 33, 78, 0, 23, 2, 102, 3, 3, 1, 469, 0, 22, 0, 137, 0, 108, 0, 21, 1, 102,
    4, 9, 2, 20550, 16, 592, 0, 62, 0, 2, 0, 169, 0, 7, 0, 6, 0, 11, 0, 35, 0, 1, 0, 47, 0, 45, 1,
    67, 0, 21, 2, 1924, 5, 1, 41, 1, 8, 1427, 0, 32, 0, 341, 0, 503, 0, 15, 0, 3339, 0, 5718, 15,
    14080, 3, 508, 2, 40, 1, 550, 12, 64, 1, 1, 0, 14, 1, 16380, 3, 1, 6, 1, 1, 3233, 3, 5327, 7,
    3765, 61, 201, 6, 941, 0, 531, 0, 587, 0, 2735, 4, 789505, 0, 30, 95]

/-! ## 2. Single characters -/

/-- The lower case of an ASCII capital; every other character is itself. -/
def asciiLower (c : Char) : Char :=
  if 'A' ≤ c && c ≤ 'Z' then Char.ofNat (c.toNat + 32) else c

/-- The shifted code point, when `n` is in one of the runs. -/
def shiftCapital (n : Nat) : List CapitalRun → Nat
  | [] => n
  | run :: rest =>
    if n < run.first then n
    else if n ≤ run.last && (n - run.first) % run.step == 0 then (n + run.shift).toNat
    else shiftCapital n rest

/-- The lower case of one character, its surroundings aside. -/
def lowerChar (c : Char) : List Char :=
  if c.toNat < 0x80 then [asciiLower c]
  else if c == 'İ' then ['i', Char.ofNat 0x307]
  else
    match (capitalPairs.flatMap fun text => pairsOf text.toList).lookup c with
    | some small => [small]
    | none => [Char.ofNat (shiftCapital c.toNat capitalRuns)]

def isCased (c : Char) : Bool :=
  if c.toNat < 0x80 then ('a' ≤ c && c ≤ 'z') || ('A' ≤ c && c ≤ 'Z')
  else inRanges c.toNat casedRanges

/-- A character that is passed over when looking for a cased neighbour. -/
def isCaseIgnorable (c : Char) : Bool :=
  if c.toNat < 0x80 then [0x27, 0x2e, 0x3a, 0x5e, 0x60].contains c.toNat
  else isNonspacing c || inRanges c.toNat caseIgnorableRanges

/-! ## 3. Texts -/

/-- Whether the nearest character that is not ignorable has case. -/
def meetsCased (cs : List Char) : Bool :=
  (cs.dropWhile isCaseIgnorable).head?.any isCased

/-- Lower case of a text, given what stands before it, nearest character first. -/
def lowerFrom (before : List Char) : List Char → List Char
  | [] => []
  | c :: rest =>
    (if c == 'Σ' then (if meetsCased before && !meetsCased rest then ['ς'] else ['σ'])
     else lowerChar c) ++ lowerFrom (c :: before) rest

def lowerChars (cs : List Char) : List Char :=
  lowerFrom [] cs

/-- `lowerChars` on strings. -/
def lower (s : String) : String :=
  String.ofList (lowerChars s.toList)

/-- The text with its ASCII capitals in lower case. -/
def lowerAscii (s : String) : String :=
  s.map asciiLower

end CodeAssist.Text
