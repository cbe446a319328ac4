import CodeAssist.Text.Range

/-!
Composed characters.

A letter with marks on it can be one character, or a letter and marks that follow it, in several
orders. The composed form of a text is the same for all of them: what can be taken apart is taken
apart, the marks are put in the order of their classes, and then each letter takes up the marks it
forms one character with. A mark of a class does so only if no mark of its class stands before it.
-/

namespace CodeAssist.Text

/-! ## 1. The tables -/

/-- The classes of the marks, by where they sit, each with the steps that lead to its ranges, as in
`spacedRanges`. A character that is in no range has class zero. -/
def markClasses : List (Nat × List Nat) :=
  [(1, [820, 4, 6555, 0, 13, 6, 1001, 1, 4, 2, 10, 1, 3, 1, 59725, 0, 24758, 4, 20905, 0, 5320, 2]),
    (6, [94192, 1]), (7, [2364, 0, 127, 0, 127, 0, 127, 0, 127, 0, 255, 0, 127, 0, 890, 0, 2812, 0,
    177, 0, 80, 0, 36219, 0, 26374, 0, 184, 0, 86, 0, 107, 0, 178, 0, 81, 1, 265, 0, 124, 0, 252, 0,
    246, 0, 386, 0, 264, 0, 1022, 0, 52231, 0]), (8, [12441, 1]), (9, [2381, 0, 127, 0, 127, 0, 127,
    0, 127, 0, 127, 0, 127, 0, 127, 0, 109, 1, 16, 0, 124, 0, 111, 0, 127, 0, 201, 0, 180, 1, 1753,
    1, 30, 0, 157, 0, 653, 0, 227, 0, 101, 1, 70, 1, 4491, 0, 31366, 0, 37, 0, 151, 0, 142, 0, 108,
    0, 309, 0, 246, 0, 24145, 0, 1542, 0, 41, 0, 14, 0, 57, 0, 121, 1, 139, 0, 116, 0, 180, 0, 98,
    0, 128, 2, 113, 0, 127, 0, 252, 0, 127, 0, 118, 0, 116, 0, 269, 0, 259, 1, 161, 0, 83, 0, 18, 0,
    81, 0, 421, 0, 260, 1, 81, 0, 425, 1, 16876, 0]), (10, [1456, 0]), (11, [1457, 0]), (12, [1458,
    0]), (13, [1459, 0]), (14, [1460, 0]), (15, [1461, 0]), (16, [1462, 0]), (17, [1463, 0]), (18,
    [1464, 0, 14, 0]), (19, [1465, 1]), (20, [1467, 0]), (21, [1468, 0]), (22, [1469, 0]), (23,
    [1471, 0]), (24, [1473, 0]), (25, [1474, 0]), (26, [64286, 0]), (27, [1611, 0, 676, 0]), (28,
    [1612, 0, 676, 0]), (29, [1613, 0, 676, 0]), (30, [1560, 0, 53, 0]), (31, [1561, 0, 53, 0]),
    (32, [1562, 0, 53, 0]), (33, [1617, 0]), (34, [1618, 0]), (35, [1648, 0]), (36, [1809, 0]), (84,
    [3157, 0]), (91, [3158, 0]), (103, [3640, 1]), (107, [3656, 3]), (118, [3768, 1]), (122, [3784,
    3]), (129, [3953, 0]), (130, [3954, 0, 7, 3, 2, 0]), (132, [3956, 0]), (202, [801, 1, 4, 1,
    6823, 0]), (214, [7630, 0]), (216, [795, 0, 3101, 0, 115243, 1, 7, 4]), (218, [7674, 0, 4655,
    0]), (220, [790, 3, 2, 4, 2, 3, 2, 10, 5, 3, 10, 2, 3, 1, 4, 3, 2, 1, 566, 0, 4, 0, 4, 0, 6, 5,
    2, 0, 26, 0, 143, 1, 5, 0, 2, 0, 131, 0, 6, 0, 2, 0, 67, 0, 2, 0, 2, 2, 1, 1, 1, 0, 3, 0, 1, 0,
    1, 0, 1, 0, 169, 0, 10, 0, 91, 2, 61, 2, 51, 4, 15, 0, 2, 0, 2, 0, 3, 2, 6, 0, 2, 1, 87, 0,
    1477, 1, 27, 0, 1, 0, 142, 0, 198, 0, 2221, 0, 220, 0, 102, 0, 53, 5, 2, 0, 1, 1, 2, 1, 5, 0,
    18, 0, 8, 0, 133, 0, 360, 4, 2, 3, 13, 0, 212, 0, 7, 0, 4, 0, 41, 0, 3, 0, 1, 0, 744, 0, 3, 3,
    34875, 2, 390, 0, 21362, 6, 975, 0, 226, 0, 1836, 0, 44, 0, 171, 0, 1043, 1, 1, 2, 70, 1, 3, 0,
    1, 3, 50, 0, 1, 0, 49653, 7, 7, 1, 4962, 0, 256, 0, 736, 6]), (222, [1434, 0, 18, 0, 5003, 0,
    5875, 0]), (224, [12334, 1]), (226, [119149, 0]), (228, [1454, 0, 4858, 0, 1357, 1, 4658, 0]),
    (230, [768, 20, 40, 7, 1, 0, 3, 2, 3, 2, 4, 0, 3, 0, 7, 12, 275, 4, 266, 3, 1, 2, 2, 5, 6, 1, 1,
    1, 2, 0, 20, 0, 75, 7, 59, 1, 2, 4, 1, 1, 119, 6, 2, 3, 1, 0, 2, 1, 2, 1, 67, 0, 1, 1, 1, 1, 3,
    0, 2, 0, 1, 2, 1, 0, 1, 0, 1, 0, 1, 1, 160, 6, 1, 0, 34, 3, 1, 8, 1, 2, 1, 4, 105, 1, 3, 3, 42,
    4, 5, 13, 2, 1, 1, 1, 1, 2, 6, 2, 1, 1, 2, 4, 81, 0, 1, 1, 169, 0, 1411, 1, 2, 1, 981, 2, 1149,
    0, 348, 0, 220, 0, 93, 7, 51, 4, 6, 1, 4, 1, 2, 4, 1, 17, 3, 5, 1, 3, 128, 0, 1, 6, 348, 2, 7,
    1, 4, 0, 19, 0, 3, 1, 198, 1, 1, 6, 1, 1, 4, 36, 5, 0, 2, 0, 721, 1, 2, 3, 3, 1, 4, 0, 5, 0, 1,
    0, 6, 0, 3070, 2, 238, 31, 30831, 0, 4, 9, 32, 1, 80, 1, 494, 17, 446, 0, 1, 1, 3, 1, 5, 1, 1,
    0, 21342, 6, 7, 1, 1350, 4, 1684, 0, 40, 0, 172, 0, 574, 3, 65, 4, 317, 1, 155, 2, 1, 0, 53, 0,
    1, 0, 379, 2, 611, 6, 3, 4, 233, 0, 22225, 6, 26190, 4, 32, 3, 148, 2, 3515, 6, 1, 16, 2, 6, 1,
    1, 1, 4, 100, 0, 160, 6, 375, 0, 61, 3, 511, 0, 254, 0, 244, 0, 2, 0, 7, 1, 5, 0, 590, 5]),
    (232, [789, 0, 4, 0, 61, 0, 6813, 0, 4661, 0, 111807, 1]), (233, [860, 0, 2, 0, 2, 0, 6809, 0]),
    (234, [861, 1, 1, 1, 6025, 0, 737, 0]), (240, [837, 0])]

/-- Which pairs form one character: by the second character, the first ones, each before what they
form together. -/
def composedPairs : List (Nat × String) :=
  [(0x300, "AÀEÈIÌNǸOÒUÙWẀYỲaàeèiìnǹoòuùwẁyỳ¨῭ÂẦÊỀÔỒÜǛâầêềôồüǜĂẰăằĒḔēḕŌṐōṑƠỜơờƯỪưừΑᾺΕῈΗῊΙῚΟῸΥῪΩῺ"),
   (0x300, "αὰεὲηὴιὶοὸυὺωὼϊῒϋῢЕЀИЍеѐиѝἀἂἁἃἈἊἉἋἐἒἑἓἘἚἙἛἠἢἡἣἨἪἩἫἰἲἱἳἸἺἹἻὀὂὁὃὈὊὉὋὐὒὑὓὙὛὠὢὡὣὨὪὩὫ᾿῍῾῝"),
   (0x301, "AÁCĆEÉGǴIÍKḰLĹMḾNŃOÓPṔRŔSŚUÚWẂYÝZŹaácćeégǵiíkḱlĺmḿnńoópṕrŕsśuúwẃyýzź¨΅ÂẤÅǺÆǼÇḈÊẾÏḮÔỐ"),
   (0x301, "ÕṌØǾÜǗâấåǻæǽçḉêếïḯôốõṍøǿüǘĂẮăắĒḖēḗŌṒōṓŨṸũṹƠỚơớƯỨưứΑΆΕΈΗΉΙΊΟΌΥΎΩΏαάεέηήιίοόυύωώϊΐϋΰϒϓ"),
   (0x301, "ГЃКЌгѓкќἀἄἁἅἈἌἉἍἐἔἑἕἘἜἙἝἠἤἡἥἨἬἩἭἰἴἱἵἸἼἹἽὀὄὁὅὈὌὉὍὐὔὑὕὙὝὠὤὡὥὨὬὩὭ᾿῎῾῞"),
   (0x302, "AÂCĈEÊGĜHĤIÎJĴOÔSŜUÛWŴYŶZẐaâcĉeêgĝhĥiîjĵoôsŝuûwŵyŷzẑẠẬạậẸỆẹệỌỘọộ"),
   (0x303, "AÃEẼIĨNÑOÕUŨVṼYỸaãeẽiĩnñoõuũvṽyỹÂẪÊỄÔỖâẫêễôỗĂẴăẵƠỠơỡƯỮưữ"),
   (0x304, "AĀEĒGḠIĪOŌUŪYȲaāeēgḡiīoōuūyȳÄǞÆǢÕȬÖȪÜǕäǟæǣõȭöȫüǖǪǬǫǭȦǠȧǡȮȰȯȱΑᾹΙῙΥῩαᾱιῑυῡИӢУӮиӣуӯḶḸḷḹ"),
   (0x304, "ṚṜṛṝ"), (0x306, "AĂEĔGĞIĬOŎUŬaăeĕgğiĭoŏuŭȨḜȩḝΑᾸΙῘΥῨαᾰιῐυῠАӐЕӖЖӁИЙУЎаӑеӗжӂийуўẠẶạặ"),
   (0x307, "AȦBḂCĊDḊEĖFḞGĠHḢIİMṀNṄOȮPṖRṘSṠTṪWẆXẊYẎZŻaȧbḃcċdḋeėfḟgġhḣmṁnṅoȯpṗrṙsṡtṫwẇxẋyẏzżŚṤśṥŠṦ"),
   (0x307, "šṧſẛṢṨṣṩ𐗒𐗉𐗚𐗤"),
   (0x308, "AÄEËHḦIÏOÖUÜWẄXẌYŸaäeëhḧiïoötẗuüwẅxẍyÿÕṎõṏŪṺūṻΙΪΥΫιϊυϋϒϔІЇАӒЕЁЖӜЗӞИӤОӦУӰЧӴЫӸЭӬаӓеёжӝ"),
   (0x308, "зӟиӥоӧуӱчӵыӹэӭіїӘӚәӛӨӪөӫ"), (0x309, "AẢEẺIỈOỎUỦYỶaảeẻiỉoỏuủyỷÂẨÊỂÔỔâẩêểôổĂẲăẳƠỞơởƯỬưử"),
   (0x30a, "AÅUŮaåuůwẘyẙ"), (0x30b, "OŐUŰoőuűУӲуӳ"),
   (0x30c, "AǍCČDĎEĚGǦHȞIǏKǨLĽNŇOǑRŘSŠTŤUǓZŽaǎcčdďeěgǧhȟiǐjǰkǩlľnňoǒrřsštťuǔzžÜǙüǚƷǮʒǯ"),
   (0x30f, "AȀEȄIȈOȌRȐUȔaȁeȅiȉoȍrȑuȕѴѶѵѷ"), (0x311, "AȂEȆIȊOȎRȒUȖaȃeȇiȋoȏrȓuȗ"),
   (0x313, "ΑἈΕἘΗἨΙἸΟὈΩὨαἀεἐηἠιἰοὀρῤυὐωὠ"), (0x314, "ΑἉΕἙΗἩΙἹΟὉΡῬΥὙΩὩαἁεἑηἡιἱοὁρῥυὑωὡ"),
   (0x31b, "OƠUƯoơuư"),
   (0x323, "AẠBḄDḌEẸHḤIỊKḲLḶMṂNṆOỌRṚSṢTṬUỤVṾWẈYỴZẒaạbḅdḍeẹhḥiịkḳlḷmṃnṇoọrṛsṣtṭuụvṿwẉyỵzẓƠỢơợƯỰưự"),
   (0x324, "UṲuṳ"), (0x325, "AḀaḁ"), (0x326, "SȘTȚsștț"),
   (0x327, "CÇDḐEȨGĢHḨKĶLĻNŅRŖSŞTŢcçdḑeȩgģhḩkķlļnņrŗsştţ"), (0x328, "AĄEĘIĮOǪUŲaąeęiįoǫuų"),
   (0x32d, "DḒEḘLḼNṊTṰUṶdḓeḙlḽnṋtṱuṷ"), (0x32e, "HḪhḫ"), (0x330, "EḚIḬUṴeḛiḭuṵ"),
   (0x331, "BḆDḎKḴLḺNṈRṞTṮZẔbḇdḏhẖkḵlḻnṉrṟtṯzẕ"),
   (0x338, "<≮=≠>≯←↚→↛↔↮⇐⇍⇒⇏⇔⇎∃∄∈∉∋∌∣∤∥∦∼≁≃≄≅≇≈≉≍≭≡≢≤≰≥≱≲≴≳≵≶≸≷≹≺⊀≻⊁≼⋠≽⋡⊂⊄⊃⊅⊆⊈⊇⊉⊑⋢⊒⋣⊢⊬⊨⊭⊩⊮⊫⊯⊲⋪⊳⋫"),
   (0x338, "⊴⋬⊵⋭"), (0x342, "¨῁αᾶηῆιῖυῦωῶϊῗϋῧἀἆἁἇἈἎἉἏἠἦἡἧἨἮἩἯἰἶἱἷἸἾἹἿὐὖὑὗὙὟὠὦὡὧὨὮὩὯ᾿῏῾῟"),
   (0x345, "ΑᾼΗῌΩῼάᾴήῄαᾳηῃωῳώῴἀᾀἁᾁἂᾂἃᾃἄᾄἅᾅἆᾆἇᾇἈᾈἉᾉἊᾊἋᾋἌᾌἍᾍἎᾎἏᾏἠᾐἡᾑἢᾒἣᾓἤᾔἥᾕἦᾖἧᾗἨᾘἩᾙἪᾚἫᾛἬᾜἭᾝἮᾞἯᾟὠᾠ"),
   (0x345, "ὡᾡὢᾢὣᾣὤᾤὥᾥὦᾦὧᾧὨᾨὩᾩὪᾪὫᾫὬᾬὭᾭὮᾮὯᾯὰᾲὴῂὼῲᾶᾷῆῇῶῷ"), (0x653, "\u0627\u0622"),
   (0x654, "\u0627\u0623\u0648\u0624\u064a\u0626\u06c1\u06c2\u06d2\u06d3\u06d5\u06c0"),
   (0x655, "\u0627\u0625"), (0x93c, "नऩरऱळऴ"), (0x9be, "\u09c7\u09cb"), (0x9d7, "\u09c7\u09cc"),
   (0xb3e, "\u0b47\u0b4b"), (0xb56, "\u0b47\u0b48"), (0xb57, "\u0b47\u0b4c"),
   (0xbbe, "\u0bc6\u0bca\u0bc7\u0bcb"), (0xbd7, "ஒஔ\u0bc6\u0bcc"), (0xc56, "\u0c46\u0c48"),
   (0xcc2, "\u0cc6\u0cca"), (0xcd5, "\u0cbf\u0cc0\u0cc6\u0cc7\u0cca\u0ccb"),
   (0xcd6, "\u0cc6\u0cc8"), (0xd3e, "\u0d46\u0d4a\u0d47\u0d4b"), (0xd57, "\u0d46\u0d4c"),
   (0xdca, "\u0dd9\u0dda\u0ddc\u0ddd"), (0xdcf, "\u0dd9\u0ddc"), (0xddf, "\u0dd9\u0dde"),
   (0x102e, "ဥဦ"),
   (0x1b35, "ᬅᬆᬇᬈᬉᬊᬋᬌᬍᬎᬑᬒ\u1b3a\u1b3b\u1b3c\u1b3d\u1b3e\u1b40\u1b3f\u1b41\u1b42\u1b43"),
   (0x3099, "うゔかがきぎくぐけげこごさざしじすずせぜそぞただちぢつづてでとどはばひびふぶへべほぼゝゞウヴカガキギクグケゲコゴサザシジスズセゼソゾタダチヂツヅテデトドハバヒビフブヘベ"),
   (0x3099, "ホボワヷヰヸヱヹヲヺヽヾ"), (0x309a, "はぱひぴふぷへぺほぽハパヒピフプヘペホポ"), (0x110ba, "𑂙𑂚𑂛𑂜𑂥𑂫"),
   (0x11127, "𑄱𑄮𑄲𑄯"), (0x1133e, "𑍇𑍋"), (0x11357, "𑍇𑍌"), (0x113b8, "𑏅𑎸"), (0x113bb, "𑎄𑎅"),
   (0x113c2, "𑎋𑎎𑏅𑏂"), (0x113c9, "𑎂𑎃𑎐𑎑𑏅𑏉"), (0x114b0, "𑒹𑒼"), (0x114ba, "𑒹𑒻"), (0x114bd, "𑒹𑒾"),
   (0x115af, "𑖸𑖺𑖹𑖻"), (0x11930, "𑤵𑤸"), (0x1611e, "𖄡𖄞"), (0x1611f, "𖄦𖄡𖄦𖄢𖄧𖄩𖄤"), (0x16120, "𖄨𖄡𖄨"),
   (0x16129, "𖄡𖄩"), (0x16d67, "𖵣𖵪𖵨𖵩𖵪")]

/-! ## 2. Pairs -/

/-- The class of a mark, and zero for a character that is none. -/
def markClass (c : Char) : Nat :=
  match markClasses.find? fun (_, steps) => inRanges c.toNat (spacedRanges 0 steps) with
  | some (k, _) => k
  | none => 0

def isVirama (c : Char) : Bool :=
  markClass c == 9

/-- The syllable that a consonant and a vowel form, or such a syllable and a final consonant, in
Hangul: the syllables stand in the order of their letters, of which there are nineteen, twenty-one
and twenty-seven. -/
def syllable? (a b : Nat) : Option Nat :=
  if 0x1100 ≤ a && a < 0x1113 && 0x1161 ≤ b && b < 0x1176 then
    some (0xac00 + ((a - 0x1100) * 21 + (b - 0x1161)) * 28)
  else if 0xac00 ≤ a && a < 0xd7a4 && (a - 0xac00) % 28 == 0 && 0x11a7 < b && b < 0x11c3 then
    some (a + (b - 0x11a7))
  else none

def syllableParts? (n : Nat) : Option (Nat × Nat) :=
  if 0xac00 ≤ n && n < 0xd7a4 then
    let i := n - 0xac00
    if i % 28 == 0 then some (0x1100 + i / 588, 0x1161 + i / 28 % 21)
    else some (n - i % 28, 0x11a7 + i % 28)
  else none

def compose? (a b : Char) : Option Char :=
  match syllable? a.toNat b.toNat with
  | some n => some (Char.ofNat n)
  | none =>
    composedPairs.findSome? fun (second, text) =>
      if second == b.toNat then (pairsOf text.toList).lookup a else none

def partsOf? (c : Char) : Option (Char × Char) :=
  match syllableParts? c.toNat with
  | some (a, b) => some (Char.ofNat a, Char.ofNat b)
  | none =>
    -- The first of the characters that are formed of others.
    if c < 'À' then none
    else
      composedPairs.findSome? fun (second, text) =>
        ((pairsOf text.toList).find? (·.2 == c)).map fun (a, _) => (a, Char.ofNat second)

/-! ## 3. Texts -/

/-- A character taken apart, at most `depth` times. -/
def takenApart : Nat → Char → List Char
  | 0, c => [c]
  | depth + 1, c =>
    match partsOf? c with
    | none => [c]
    | some (a, b) => takenApart depth a ++ [b]

/-- Puts a character at the end of a text that is given backwards. A mark goes before the marks of
higher classes. -/
def placed (c : Char) : List Char → List Char
  | [] => [c]
  | d :: before =>
    if markClass c != 0 && markClass c < markClass d then d :: placed c before
    else c :: d :: before

/-- A text whose first character takes up the marks that follow, and then the others likewise.
`marks` are those it did not take up, given backwards. -/
def composedFrom (first : Char) (marks : List Char) : List Char → List Char
  | [] => first :: marks.reverse
  | c :: rest =>
    let free := marks.head?.all fun mark => markClass mark < markClass c
    match if free then compose? first c else none with
    | some whole => composedFrom whole marks rest
    | none =>
      if markClass c == 0 then first :: marks.reverse ++ composedFrom c [] rest
      else composedFrom first (c :: marks) rest

/-- The composed form of a text. No character is formed in more than three steps. -/
def composed (cs : List Char) : List Char :=
  let parts := cs.flatMap (takenApart 3)
  match (parts.foldl (fun before c => placed c before) []).reverse with
  | [] => []
  | c :: rest => composedFrom c [] rest

end CodeAssist.Text
