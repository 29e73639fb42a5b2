/-
  Highlighting/Text/ScriptTable.lean
  ==================================
  **The scripts of characters** in Unicode 17.0, as tables of code point ranges.

  A character belongs to one script.  Those that several scripts have in common
  make up scripts of their own, and a few are known to be used with certain
  others (`Script.shared`).  Names are written in small letters without
  separators, the usual one first.
-/
import Highlighting.Text.CharTable

namespace Highlighting.Script

def names : Array (List String) := #[
  ["adlam", "adlm"], ["ahom"], ["anatolianhieroglyphs", "hluw"], ["arabic", "arab"],
  ["armenian", "armn"], ["avestan", "avst"], ["balinese", "bali"], ["bamum", "bamu"],
  ["bassavah", "bass"], ["batak", "batk"], ["bengali", "beng"], ["beriaerfe", "berf"],
  ["bhaiksuki", "bhks"], ["bopomofo", "bopo"], ["brahmi", "brah"], ["braille", "brai"],
  ["buginese", "bugi"], ["buhid", "buhd"], ["canadianaboriginal", "cans"], ["carian", "cari"],
  ["caucasianalbanian", "aghb"], ["chakma", "cakm"], ["cham"], ["cherokee", "cher"],
  ["chorasmian", "chrs"], ["common", "zyyy"], ["coptic", "copt", "qaac"], ["cuneiform", "xsux"],
  ["cypriot", "cprt"], ["cyprominoan", "cpmn"], ["cyrillic", "cyrl"], ["deseret", "dsrt"],
  ["devanagari", "deva"], ["divesakuru", "diak"], ["dogra", "dogr"], ["duployan", "dupl"],
  ["egyptianhieroglyphs", "egyp"], ["elbasan", "elba"], ["elymaic", "elym"], ["ethiopic", "ethi"],
  ["garay", "gara"], ["georgian", "geor"], ["glagolitic", "glag"], ["gothic", "goth"],
  ["grantha", "gran"], ["greek", "grek"], ["gujarati", "gujr"], ["gunjalagondi", "gong"],
  ["gurmukhi", "guru"], ["gurungkhema", "gukh"], ["han", "hani"], ["hangul", "hang"],
  ["hanifirohingya", "rohg"], ["hanunoo", "hano"], ["hatran", "hatr"], ["hebrew", "hebr"],
  ["hiragana", "hira"], ["imperialaramaic", "armi"], ["inherited", "zinh", "qaai"],
  ["inscriptionalpahlavi", "phli"], ["inscriptionalparthian", "prti"], ["javanese", "java"],
  ["kaithi", "kthi"], ["kannada", "knda"], ["katakana", "kana"], ["kawi"], ["kayahli", "kali"],
  ["kharoshthi", "khar"], ["khitansmallscript", "kits"], ["khmer", "khmr"], ["khojki", "khoj"],
  ["khudawadi", "sind"], ["kiratrai", "krai"], ["lao", "laoo"], ["latin", "latn"],
  ["lepcha", "lepc"], ["limbu", "limb"], ["lineara", "lina"], ["linearb", "linb"], ["lisu"],
  ["lycian", "lyci"], ["lydian", "lydi"], ["mahajani", "mahj"], ["makasar", "maka"],
  ["malayalam", "mlym"], ["mandaic", "mand"], ["manichaean", "mani"], ["marchen", "marc"],
  ["masaramgondi", "gonm"], ["medefaidrin", "medf"], ["meeteimayek", "mtei"],
  ["mendekikakui", "mend"], ["meroiticcursive", "merc"], ["meroitichieroglyphs", "mero"],
  ["miao", "plrd"], ["modi"], ["mongolian", "mong"], ["mro", "mroo"], ["multani", "mult"],
  ["myanmar", "mymr"], ["nabataean", "nbat"], ["nagmundari", "nagm"], ["nandinagari", "nand"],
  ["newa"], ["newtailue", "talu"], ["nko", "nkoo"], ["nushu", "nshu"],
  ["nyiakengpuachuehmong", "hmnp"], ["ogham", "ogam"], ["olchiki", "olck"],
  ["oldhungarian", "hung"], ["olditalic", "ital"], ["oldnortharabian", "narb"],
  ["oldpermic", "perm"], ["oldpersian", "xpeo"], ["oldsogdian", "sogo"],
  ["oldsoutharabian", "sarb"], ["oldturkic", "orkh"], ["olduyghur", "ougr"], ["olonal", "onao"],
  ["oriya", "orya"], ["osage", "osge"], ["osmanya", "osma"], ["pahawhhmong", "hmng"],
  ["palmyrene", "palm"], ["paucinhau", "pauc"], ["phagspa", "phag"], ["phoenician", "phnx"],
  ["psalterpahlavi", "phlp"], ["rejang", "rjng"], ["runic", "runr"], ["samaritan", "samr"],
  ["saurashtra", "saur"], ["sharada", "shrd"], ["shavian", "shaw"], ["siddham", "sidd"],
  ["sidetic", "sidt"], ["signwriting", "sgnw"], ["sinhala", "sinh"], ["sogdian", "sogd"],
  ["sorasompeng", "sora"], ["soyombo", "soyo"], ["sundanese", "sund"], ["sunuwar", "sunu"],
  ["sylotinagri", "sylo"], ["syriac", "syrc"], ["tagalog", "tglg"], ["tagbanwa", "tagb"],
  ["taile", "tale"], ["taitham", "lana"], ["taiviet", "tavt"], ["taiyo", "tayo"], ["takri", "takr"],
  ["tamil", "taml"], ["tangsa", "tnsa"], ["tangut", "tang"], ["telugu", "telu"], ["thaana", "thaa"],
  ["thai"], ["tibetan", "tibt"], ["tifinagh", "tfng"], ["tirhuta", "tirh"], ["todhri", "todr"],
  ["tolongsiki", "tols"], ["toto"], ["tulutigalari", "tutg"], ["ugaritic", "ugar"], ["vai", "vaii"],
  ["vithkuqi", "vith"], ["wancho", "wcho"], ["warangciti", "wara"], ["yezidi", "yezi"],
  ["yi", "yiii"], ["zanabazarsquare", "zanb"]]

/-- Ranges of code points below U+3000 with the numbers of their scripts. -/
def lowRuns : Array (Nat × Nat × Nat) := #[
  (0x0, 0x40, 25), (0x41, 0x5A, 74), (0x5B, 0x60, 25), (0x61, 0x7A, 74), (0x7B, 0xA9, 25),
  (0xAA, 0xAA, 74), (0xAB, 0xB9, 25), (0xBA, 0xBA, 74), (0xBB, 0xBF, 25), (0xC0, 0xD6, 74),
  (0xD7, 0xD7, 25), (0xD8, 0xF6, 74), (0xF7, 0xF7, 25), (0xF8, 0x2B8, 74), (0x2B9, 0x2DF, 25),
  (0x2E0, 0x2E4, 74), (0x2E5, 0x2E9, 25), (0x2EA, 0x2EB, 13), (0x2EC, 0x2FF, 25),
  (0x300, 0x36F, 58), (0x370, 0x373, 45), (0x374, 0x374, 25), (0x375, 0x377, 45),
  (0x37A, 0x37D, 45), (0x37E, 0x37E, 25), (0x37F, 0x37F, 45), (0x384, 0x384, 45),
  (0x385, 0x385, 25), (0x386, 0x386, 45), (0x387, 0x387, 25), (0x388, 0x38A, 45),
  (0x38C, 0x38C, 45), (0x38E, 0x3A1, 45), (0x3A3, 0x3E1, 45), (0x3E2, 0x3EF, 26),
  (0x3F0, 0x3FF, 45), (0x400, 0x484, 30), (0x485, 0x486, 58), (0x487, 0x52F, 30), (0x531, 0x556, 4),
  (0x559, 0x58A, 4), (0x58D, 0x58F, 4), (0x591, 0x5C7, 55), (0x5D0, 0x5EA, 55), (0x5EF, 0x5F4, 55),
  (0x600, 0x604, 3), (0x605, 0x605, 25), (0x606, 0x60B, 3), (0x60C, 0x60C, 25), (0x60D, 0x61A, 3),
  (0x61B, 0x61B, 25), (0x61C, 0x61E, 3), (0x61F, 0x61F, 25), (0x620, 0x63F, 3), (0x640, 0x640, 25),
  (0x641, 0x64A, 3), (0x64B, 0x655, 58), (0x656, 0x66F, 3), (0x670, 0x670, 58), (0x671, 0x6DC, 3),
  (0x6DD, 0x6DD, 25), (0x6DE, 0x6FF, 3), (0x700, 0x70D, 145), (0x70F, 0x74A, 145),
  (0x74D, 0x74F, 145), (0x750, 0x77F, 3), (0x780, 0x7B1, 157), (0x7C0, 0x7FA, 105),
  (0x7FD, 0x7FF, 105), (0x800, 0x82D, 131), (0x830, 0x83E, 131), (0x840, 0x85B, 85),
  (0x85E, 0x85E, 85), (0x860, 0x86A, 145), (0x870, 0x891, 3), (0x897, 0x8E1, 3), (0x8E2, 0x8E2, 25),
  (0x8E3, 0x8FF, 3), (0x900, 0x950, 32), (0x951, 0x954, 58), (0x955, 0x963, 32), (0x964, 0x965, 25),
  (0x966, 0x97F, 32), (0x980, 0x983, 10), (0x985, 0x98C, 10), (0x98F, 0x990, 10),
  (0x993, 0x9A8, 10), (0x9AA, 0x9B0, 10), (0x9B2, 0x9B2, 10), (0x9B6, 0x9B9, 10),
  (0x9BC, 0x9C4, 10), (0x9C7, 0x9C8, 10), (0x9CB, 0x9CE, 10), (0x9D7, 0x9D7, 10),
  (0x9DC, 0x9DD, 10), (0x9DF, 0x9E3, 10), (0x9E6, 0x9FE, 10), (0xA01, 0xA03, 48),
  (0xA05, 0xA0A, 48), (0xA0F, 0xA10, 48), (0xA13, 0xA28, 48), (0xA2A, 0xA30, 48),
  (0xA32, 0xA33, 48), (0xA35, 0xA36, 48), (0xA38, 0xA39, 48), (0xA3C, 0xA3C, 48),
  (0xA3E, 0xA42, 48), (0xA47, 0xA48, 48), (0xA4B, 0xA4D, 48), (0xA51, 0xA51, 48),
  (0xA59, 0xA5C, 48), (0xA5E, 0xA5E, 48), (0xA66, 0xA76, 48), (0xA81, 0xA83, 46),
  (0xA85, 0xA8D, 46), (0xA8F, 0xA91, 46), (0xA93, 0xAA8, 46), (0xAAA, 0xAB0, 46),
  (0xAB2, 0xAB3, 46), (0xAB5, 0xAB9, 46), (0xABC, 0xAC5, 46), (0xAC7, 0xAC9, 46),
  (0xACB, 0xACD, 46), (0xAD0, 0xAD0, 46), (0xAE0, 0xAE3, 46), (0xAE6, 0xAF1, 46),
  (0xAF9, 0xAFF, 46), (0xB01, 0xB03, 120), (0xB05, 0xB0C, 120), (0xB0F, 0xB10, 120),
  (0xB13, 0xB28, 120), (0xB2A, 0xB30, 120), (0xB32, 0xB33, 120), (0xB35, 0xB39, 120),
  (0xB3C, 0xB44, 120), (0xB47, 0xB48, 120), (0xB4B, 0xB4D, 120), (0xB55, 0xB57, 120),
  (0xB5C, 0xB5D, 120), (0xB5F, 0xB63, 120), (0xB66, 0xB77, 120), (0xB82, 0xB83, 153),
  (0xB85, 0xB8A, 153), (0xB8E, 0xB90, 153), (0xB92, 0xB95, 153), (0xB99, 0xB9A, 153),
  (0xB9C, 0xB9C, 153), (0xB9E, 0xB9F, 153), (0xBA3, 0xBA4, 153), (0xBA8, 0xBAA, 153),
  (0xBAE, 0xBB9, 153), (0xBBE, 0xBC2, 153), (0xBC6, 0xBC8, 153), (0xBCA, 0xBCD, 153),
  (0xBD0, 0xBD0, 153), (0xBD7, 0xBD7, 153), (0xBE6, 0xBFA, 153), (0xC00, 0xC0C, 156),
  (0xC0E, 0xC10, 156), (0xC12, 0xC28, 156), (0xC2A, 0xC39, 156), (0xC3C, 0xC44, 156),
  (0xC46, 0xC48, 156), (0xC4A, 0xC4D, 156), (0xC55, 0xC56, 156), (0xC58, 0xC5A, 156),
  (0xC5C, 0xC5D, 156), (0xC60, 0xC63, 156), (0xC66, 0xC6F, 156), (0xC77, 0xC7F, 156),
  (0xC80, 0xC8C, 63), (0xC8E, 0xC90, 63), (0xC92, 0xCA8, 63), (0xCAA, 0xCB3, 63),
  (0xCB5, 0xCB9, 63), (0xCBC, 0xCC4, 63), (0xCC6, 0xCC8, 63), (0xCCA, 0xCCD, 63),
  (0xCD5, 0xCD6, 63), (0xCDC, 0xCDE, 63), (0xCE0, 0xCE3, 63), (0xCE6, 0xCEF, 63),
  (0xCF1, 0xCF3, 63), (0xD00, 0xD0C, 84), (0xD0E, 0xD10, 84), (0xD12, 0xD44, 84),
  (0xD46, 0xD48, 84), (0xD4A, 0xD4F, 84), (0xD54, 0xD63, 84), (0xD66, 0xD7F, 84),
  (0xD81, 0xD83, 138), (0xD85, 0xD96, 138), (0xD9A, 0xDB1, 138), (0xDB3, 0xDBB, 138),
  (0xDBD, 0xDBD, 138), (0xDC0, 0xDC6, 138), (0xDCA, 0xDCA, 138), (0xDCF, 0xDD4, 138),
  (0xDD6, 0xDD6, 138), (0xDD8, 0xDDF, 138), (0xDE6, 0xDEF, 138), (0xDF2, 0xDF4, 138),
  (0xE01, 0xE3A, 158), (0xE3F, 0xE3F, 25), (0xE40, 0xE5B, 158), (0xE81, 0xE82, 73),
  (0xE84, 0xE84, 73), (0xE86, 0xE8A, 73), (0xE8C, 0xEA3, 73), (0xEA5, 0xEA5, 73),
  (0xEA7, 0xEBD, 73), (0xEC0, 0xEC4, 73), (0xEC6, 0xEC6, 73), (0xEC8, 0xECE, 73),
  (0xED0, 0xED9, 73), (0xEDC, 0xEDF, 73), (0xF00, 0xF47, 159), (0xF49, 0xF6C, 159),
  (0xF71, 0xF97, 159), (0xF99, 0xFBC, 159), (0xFBE, 0xFCC, 159), (0xFCE, 0xFD4, 159),
  (0xFD5, 0xFD8, 25), (0xFD9, 0xFDA, 159), (0x1000, 0x109F, 99), (0x10A0, 0x10C5, 41),
  (0x10C7, 0x10C7, 41), (0x10CD, 0x10CD, 41), (0x10D0, 0x10FA, 41), (0x10FB, 0x10FB, 25),
  (0x10FC, 0x10FF, 41), (0x1100, 0x11FF, 51), (0x1200, 0x1248, 39), (0x124A, 0x124D, 39),
  (0x1250, 0x1256, 39), (0x1258, 0x1258, 39), (0x125A, 0x125D, 39), (0x1260, 0x1288, 39),
  (0x128A, 0x128D, 39), (0x1290, 0x12B0, 39), (0x12B2, 0x12B5, 39), (0x12B8, 0x12BE, 39),
  (0x12C0, 0x12C0, 39), (0x12C2, 0x12C5, 39), (0x12C8, 0x12D6, 39), (0x12D8, 0x1310, 39),
  (0x1312, 0x1315, 39), (0x1318, 0x135A, 39), (0x135D, 0x137C, 39), (0x1380, 0x1399, 39),
  (0x13A0, 0x13F5, 23), (0x13F8, 0x13FD, 23), (0x1400, 0x167F, 18), (0x1680, 0x169C, 108),
  (0x16A0, 0x16EA, 130), (0x16EB, 0x16ED, 25), (0x16EE, 0x16F8, 130), (0x1700, 0x1715, 146),
  (0x171F, 0x171F, 146), (0x1720, 0x1734, 53), (0x1735, 0x1736, 25), (0x1740, 0x1753, 17),
  (0x1760, 0x176C, 147), (0x176E, 0x1770, 147), (0x1772, 0x1773, 147), (0x1780, 0x17DD, 69),
  (0x17E0, 0x17E9, 69), (0x17F0, 0x17F9, 69), (0x1800, 0x1801, 96), (0x1802, 0x1803, 25),
  (0x1804, 0x1804, 96), (0x1805, 0x1805, 25), (0x1806, 0x1819, 96), (0x1820, 0x1878, 96),
  (0x1880, 0x18AA, 96), (0x18B0, 0x18F5, 18), (0x1900, 0x191E, 76), (0x1920, 0x192B, 76),
  (0x1930, 0x193B, 76), (0x1940, 0x1940, 76), (0x1944, 0x194F, 76), (0x1950, 0x196D, 148),
  (0x1970, 0x1974, 148), (0x1980, 0x19AB, 104), (0x19B0, 0x19C9, 104), (0x19D0, 0x19DA, 104),
  (0x19DE, 0x19DF, 104), (0x19E0, 0x19FF, 69), (0x1A00, 0x1A1B, 16), (0x1A1E, 0x1A1F, 16),
  (0x1A20, 0x1A5E, 149), (0x1A60, 0x1A7C, 149), (0x1A7F, 0x1A89, 149), (0x1A90, 0x1A99, 149),
  (0x1AA0, 0x1AAD, 149), (0x1AB0, 0x1ADD, 58), (0x1AE0, 0x1AEB, 58), (0x1B00, 0x1B4C, 6),
  (0x1B4E, 0x1B7F, 6), (0x1B80, 0x1BBF, 142), (0x1BC0, 0x1BF3, 9), (0x1BFC, 0x1BFF, 9),
  (0x1C00, 0x1C37, 75), (0x1C3B, 0x1C49, 75), (0x1C4D, 0x1C4F, 75), (0x1C50, 0x1C7F, 109),
  (0x1C80, 0x1C8A, 30), (0x1C90, 0x1CBA, 41), (0x1CBD, 0x1CBF, 41), (0x1CC0, 0x1CC7, 142),
  (0x1CD0, 0x1CD2, 58), (0x1CD3, 0x1CD3, 25), (0x1CD4, 0x1CE0, 58), (0x1CE1, 0x1CE1, 25),
  (0x1CE2, 0x1CE8, 58), (0x1CE9, 0x1CEC, 25), (0x1CED, 0x1CED, 58), (0x1CEE, 0x1CF3, 25),
  (0x1CF4, 0x1CF4, 58), (0x1CF5, 0x1CF7, 25), (0x1CF8, 0x1CF9, 58), (0x1CFA, 0x1CFA, 25),
  (0x1D00, 0x1D25, 74), (0x1D26, 0x1D2A, 45), (0x1D2B, 0x1D2B, 30), (0x1D2C, 0x1D5C, 74),
  (0x1D5D, 0x1D61, 45), (0x1D62, 0x1D65, 74), (0x1D66, 0x1D6A, 45), (0x1D6B, 0x1D77, 74),
  (0x1D78, 0x1D78, 30), (0x1D79, 0x1DBE, 74), (0x1DBF, 0x1DBF, 45), (0x1DC0, 0x1DFF, 58),
  (0x1E00, 0x1EFF, 74), (0x1F00, 0x1F15, 45), (0x1F18, 0x1F1D, 45), (0x1F20, 0x1F45, 45),
  (0x1F48, 0x1F4D, 45), (0x1F50, 0x1F57, 45), (0x1F59, 0x1F59, 45), (0x1F5B, 0x1F5B, 45),
  (0x1F5D, 0x1F5D, 45), (0x1F5F, 0x1F7D, 45), (0x1F80, 0x1FB4, 45), (0x1FB6, 0x1FC4, 45),
  (0x1FC6, 0x1FD3, 45), (0x1FD6, 0x1FDB, 45), (0x1FDD, 0x1FEF, 45), (0x1FF2, 0x1FF4, 45),
  (0x1FF6, 0x1FFE, 45), (0x2000, 0x200B, 25), (0x200C, 0x200D, 58), (0x200E, 0x2064, 25),
  (0x2066, 0x2070, 25), (0x2071, 0x2071, 74), (0x2074, 0x207E, 25), (0x207F, 0x207F, 74),
  (0x2080, 0x208E, 25), (0x2090, 0x209C, 74), (0x20A0, 0x20C1, 25), (0x20D0, 0x20F0, 58),
  (0x2100, 0x2125, 25), (0x2126, 0x2126, 45), (0x2127, 0x2129, 25), (0x212A, 0x212B, 74),
  (0x212C, 0x2131, 25), (0x2132, 0x2132, 74), (0x2133, 0x214D, 25), (0x214E, 0x214E, 74),
  (0x214F, 0x215F, 25), (0x2160, 0x2188, 74), (0x2189, 0x218B, 25), (0x2190, 0x2429, 25),
  (0x2440, 0x244A, 25), (0x2460, 0x27FF, 25), (0x2800, 0x28FF, 15), (0x2900, 0x2B73, 25),
  (0x2B76, 0x2BFF, 25), (0x2C00, 0x2C5F, 42), (0x2C60, 0x2C7F, 74), (0x2C80, 0x2CF3, 26),
  (0x2CF9, 0x2CFF, 26), (0x2D00, 0x2D25, 41), (0x2D27, 0x2D27, 41), (0x2D2D, 0x2D2D, 41),
  (0x2D30, 0x2D67, 160), (0x2D6F, 0x2D70, 160), (0x2D7F, 0x2D7F, 160), (0x2D80, 0x2D96, 39),
  (0x2DA0, 0x2DA6, 39), (0x2DA8, 0x2DAE, 39), (0x2DB0, 0x2DB6, 39), (0x2DB8, 0x2DBE, 39),
  (0x2DC0, 0x2DC6, 39), (0x2DC8, 0x2DCE, 39), (0x2DD0, 0x2DD6, 39), (0x2DD8, 0x2DDE, 39),
  (0x2DE0, 0x2DFF, 30), (0x2E00, 0x2E5D, 25), (0x2E80, 0x2E99, 50), (0x2E9B, 0x2EF3, 50),
  (0x2F00, 0x2FD5, 50), (0x2FF0, 0x2FFF, 25)]

/-- Ranges of code points from U+3000 on with the numbers of their scripts. -/
def highRuns : Array (Nat × Nat × Nat) := #[
  (0x3000, 0x3004, 25), (0x3005, 0x3005, 50), (0x3006, 0x3006, 25), (0x3007, 0x3007, 50),
  (0x3008, 0x3020, 25), (0x3021, 0x3029, 50), (0x302A, 0x302D, 58), (0x302E, 0x302F, 51),
  (0x3030, 0x3037, 25), (0x3038, 0x303B, 50), (0x303C, 0x303F, 25), (0x3041, 0x3096, 56),
  (0x3099, 0x309A, 58), (0x309B, 0x309C, 25), (0x309D, 0x309F, 56), (0x30A0, 0x30A0, 25),
  (0x30A1, 0x30FA, 64), (0x30FB, 0x30FC, 25), (0x30FD, 0x30FF, 64), (0x3105, 0x312F, 13),
  (0x3131, 0x318E, 51), (0x3190, 0x319F, 25), (0x31A0, 0x31BF, 13), (0x31C0, 0x31E5, 25),
  (0x31EF, 0x31EF, 25), (0x31F0, 0x31FF, 64), (0x3200, 0x321E, 51), (0x3220, 0x325F, 25),
  (0x3260, 0x327E, 51), (0x327F, 0x32CF, 25), (0x32D0, 0x32FE, 64), (0x32FF, 0x32FF, 25),
  (0x3300, 0x3357, 64), (0x3358, 0x33FF, 25), (0x3400, 0x4DBF, 50), (0x4DC0, 0x4DFF, 25),
  (0x4E00, 0x9FFF, 50), (0xA000, 0xA48C, 172), (0xA490, 0xA4C6, 172), (0xA4D0, 0xA4FF, 79),
  (0xA500, 0xA62B, 167), (0xA640, 0xA69F, 30), (0xA6A0, 0xA6F7, 7), (0xA700, 0xA721, 25),
  (0xA722, 0xA787, 74), (0xA788, 0xA78A, 25), (0xA78B, 0xA7DC, 74), (0xA7F1, 0xA7FF, 74),
  (0xA800, 0xA82C, 144), (0xA830, 0xA839, 25), (0xA840, 0xA877, 126), (0xA880, 0xA8C5, 132),
  (0xA8CE, 0xA8D9, 132), (0xA8E0, 0xA8FF, 32), (0xA900, 0xA92D, 66), (0xA92E, 0xA92E, 25),
  (0xA92F, 0xA92F, 66), (0xA930, 0xA953, 129), (0xA95F, 0xA95F, 129), (0xA960, 0xA97C, 51),
  (0xA980, 0xA9CD, 61), (0xA9CF, 0xA9CF, 25), (0xA9D0, 0xA9D9, 61), (0xA9DE, 0xA9DF, 61),
  (0xA9E0, 0xA9FE, 99), (0xAA00, 0xAA36, 22), (0xAA40, 0xAA4D, 22), (0xAA50, 0xAA59, 22),
  (0xAA5C, 0xAA5F, 22), (0xAA60, 0xAA7F, 99), (0xAA80, 0xAAC2, 150), (0xAADB, 0xAADF, 150),
  (0xAAE0, 0xAAF6, 90), (0xAB01, 0xAB06, 39), (0xAB09, 0xAB0E, 39), (0xAB11, 0xAB16, 39),
  (0xAB20, 0xAB26, 39), (0xAB28, 0xAB2E, 39), (0xAB30, 0xAB5A, 74), (0xAB5B, 0xAB5B, 25),
  (0xAB5C, 0xAB64, 74), (0xAB65, 0xAB65, 45), (0xAB66, 0xAB69, 74), (0xAB6A, 0xAB6B, 25),
  (0xAB70, 0xABBF, 23), (0xABC0, 0xABED, 90), (0xABF0, 0xABF9, 90), (0xAC00, 0xD7A3, 51),
  (0xD7B0, 0xD7C6, 51), (0xD7CB, 0xD7FB, 51), (0xF900, 0xFA6D, 50), (0xFA70, 0xFAD9, 50),
  (0xFB00, 0xFB06, 74), (0xFB13, 0xFB17, 4), (0xFB1D, 0xFB36, 55), (0xFB38, 0xFB3C, 55),
  (0xFB3E, 0xFB3E, 55), (0xFB40, 0xFB41, 55), (0xFB43, 0xFB44, 55), (0xFB46, 0xFB4F, 55),
  (0xFB50, 0xFD3D, 3), (0xFD3E, 0xFD3F, 25), (0xFD40, 0xFDCF, 3), (0xFDF0, 0xFDFF, 3),
  (0xFE00, 0xFE0F, 58), (0xFE10, 0xFE19, 25), (0xFE20, 0xFE2D, 58), (0xFE2E, 0xFE2F, 30),
  (0xFE30, 0xFE52, 25), (0xFE54, 0xFE66, 25), (0xFE68, 0xFE6B, 25), (0xFE70, 0xFE74, 3),
  (0xFE76, 0xFEFC, 3), (0xFEFF, 0xFEFF, 25), (0xFF01, 0xFF20, 25), (0xFF21, 0xFF3A, 74),
  (0xFF3B, 0xFF40, 25), (0xFF41, 0xFF5A, 74), (0xFF5B, 0xFF65, 25), (0xFF66, 0xFF6F, 64),
  (0xFF70, 0xFF70, 25), (0xFF71, 0xFF9D, 64), (0xFF9E, 0xFF9F, 25), (0xFFA0, 0xFFBE, 51),
  (0xFFC2, 0xFFC7, 51), (0xFFCA, 0xFFCF, 51), (0xFFD2, 0xFFD7, 51), (0xFFDA, 0xFFDC, 51),
  (0xFFE0, 0xFFE6, 25), (0xFFE8, 0xFFEE, 25), (0xFFF9, 0xFFFD, 25), (0x10000, 0x1000B, 78),
  (0x1000D, 0x10026, 78), (0x10028, 0x1003A, 78), (0x1003C, 0x1003D, 78), (0x1003F, 0x1004D, 78),
  (0x10050, 0x1005D, 78), (0x10080, 0x100FA, 78), (0x10100, 0x10102, 25), (0x10107, 0x10133, 25),
  (0x10137, 0x1013F, 25), (0x10140, 0x1018E, 45), (0x10190, 0x1019C, 25), (0x101A0, 0x101A0, 45),
  (0x101D0, 0x101FC, 25), (0x101FD, 0x101FD, 58), (0x10280, 0x1029C, 80), (0x102A0, 0x102D0, 19),
  (0x102E0, 0x102E0, 58), (0x102E1, 0x102FB, 25), (0x10300, 0x10323, 111), (0x1032D, 0x1032F, 111),
  (0x10330, 0x1034A, 43), (0x10350, 0x1037A, 113), (0x10380, 0x1039D, 166), (0x1039F, 0x1039F, 166),
  (0x103A0, 0x103C3, 114), (0x103C8, 0x103D5, 114), (0x10400, 0x1044F, 31), (0x10450, 0x1047F, 134),
  (0x10480, 0x1049D, 122), (0x104A0, 0x104A9, 122), (0x104B0, 0x104D3, 121),
  (0x104D8, 0x104FB, 121), (0x10500, 0x10527, 37), (0x10530, 0x10563, 20), (0x1056F, 0x1056F, 20),
  (0x10570, 0x1057A, 168), (0x1057C, 0x1058A, 168), (0x1058C, 0x10592, 168),
  (0x10594, 0x10595, 168), (0x10597, 0x105A1, 168), (0x105A3, 0x105B1, 168),
  (0x105B3, 0x105B9, 168), (0x105BB, 0x105BC, 168), (0x105C0, 0x105F3, 162), (0x10600, 0x10736, 77),
  (0x10740, 0x10755, 77), (0x10760, 0x10767, 77), (0x10780, 0x10785, 74), (0x10787, 0x107B0, 74),
  (0x107B2, 0x107BA, 74), (0x10800, 0x10805, 28), (0x10808, 0x10808, 28), (0x1080A, 0x10835, 28),
  (0x10837, 0x10838, 28), (0x1083C, 0x1083C, 28), (0x1083F, 0x1083F, 28), (0x10840, 0x10855, 57),
  (0x10857, 0x1085F, 57), (0x10860, 0x1087F, 124), (0x10880, 0x1089E, 100), (0x108A7, 0x108AF, 100),
  (0x108E0, 0x108F2, 54), (0x108F4, 0x108F5, 54), (0x108FB, 0x108FF, 54), (0x10900, 0x1091B, 127),
  (0x1091F, 0x1091F, 127), (0x10920, 0x10939, 81), (0x1093F, 0x1093F, 81), (0x10940, 0x10959, 136),
  (0x10980, 0x1099F, 93), (0x109A0, 0x109B7, 92), (0x109BC, 0x109CF, 92), (0x109D2, 0x109FF, 92),
  (0x10A00, 0x10A03, 67), (0x10A05, 0x10A06, 67), (0x10A0C, 0x10A13, 67), (0x10A15, 0x10A17, 67),
  (0x10A19, 0x10A35, 67), (0x10A38, 0x10A3A, 67), (0x10A3F, 0x10A48, 67), (0x10A50, 0x10A58, 67),
  (0x10A60, 0x10A7F, 116), (0x10A80, 0x10A9F, 112), (0x10AC0, 0x10AE6, 86), (0x10AEB, 0x10AF6, 86),
  (0x10B00, 0x10B35, 5), (0x10B39, 0x10B3F, 5), (0x10B40, 0x10B55, 60), (0x10B58, 0x10B5F, 60),
  (0x10B60, 0x10B72, 59), (0x10B78, 0x10B7F, 59), (0x10B80, 0x10B91, 128), (0x10B99, 0x10B9C, 128),
  (0x10BA9, 0x10BAF, 128), (0x10C00, 0x10C48, 117), (0x10C80, 0x10CB2, 110),
  (0x10CC0, 0x10CF2, 110), (0x10CFA, 0x10CFF, 110), (0x10D00, 0x10D27, 52), (0x10D30, 0x10D39, 52),
  (0x10D40, 0x10D65, 40), (0x10D69, 0x10D85, 40), (0x10D8E, 0x10D8F, 40), (0x10E60, 0x10E7E, 3),
  (0x10E80, 0x10EA9, 171), (0x10EAB, 0x10EAD, 171), (0x10EB0, 0x10EB1, 171), (0x10EC2, 0x10EC7, 3),
  (0x10ED0, 0x10ED8, 3), (0x10EFA, 0x10EFF, 3), (0x10F00, 0x10F27, 115), (0x10F30, 0x10F59, 139),
  (0x10F70, 0x10F89, 118), (0x10FB0, 0x10FCB, 24), (0x10FE0, 0x10FF6, 38), (0x11000, 0x1104D, 14),
  (0x11052, 0x11075, 14), (0x1107F, 0x1107F, 14), (0x11080, 0x110C2, 62), (0x110CD, 0x110CD, 62),
  (0x110D0, 0x110E8, 140), (0x110F0, 0x110F9, 140), (0x11100, 0x11134, 21), (0x11136, 0x11147, 21),
  (0x11150, 0x11176, 82), (0x11180, 0x111DF, 133), (0x111E1, 0x111F4, 138), (0x11200, 0x11211, 70),
  (0x11213, 0x11241, 70), (0x11280, 0x11286, 98), (0x11288, 0x11288, 98), (0x1128A, 0x1128D, 98),
  (0x1128F, 0x1129D, 98), (0x1129F, 0x112A9, 98), (0x112B0, 0x112EA, 71), (0x112F0, 0x112F9, 71),
  (0x11300, 0x11303, 44), (0x11305, 0x1130C, 44), (0x1130F, 0x11310, 44), (0x11313, 0x11328, 44),
  (0x1132A, 0x11330, 44), (0x11332, 0x11333, 44), (0x11335, 0x11339, 44), (0x1133B, 0x1133B, 58),
  (0x1133C, 0x11344, 44), (0x11347, 0x11348, 44), (0x1134B, 0x1134D, 44), (0x11350, 0x11350, 44),
  (0x11357, 0x11357, 44), (0x1135D, 0x11363, 44), (0x11366, 0x1136C, 44), (0x11370, 0x11374, 44),
  (0x11380, 0x11389, 165), (0x1138B, 0x1138B, 165), (0x1138E, 0x1138E, 165),
  (0x11390, 0x113B5, 165), (0x113B7, 0x113C0, 165), (0x113C2, 0x113C2, 165),
  (0x113C5, 0x113C5, 165), (0x113C7, 0x113CA, 165), (0x113CC, 0x113D5, 165),
  (0x113D7, 0x113D8, 165), (0x113E1, 0x113E2, 165), (0x11400, 0x1145B, 103),
  (0x1145D, 0x11461, 103), (0x11480, 0x114C7, 161), (0x114D0, 0x114D9, 161),
  (0x11580, 0x115B5, 135), (0x115B8, 0x115DD, 135), (0x11600, 0x11644, 95), (0x11650, 0x11659, 95),
  (0x11660, 0x1166C, 96), (0x11680, 0x116B9, 152), (0x116C0, 0x116C9, 152), (0x116D0, 0x116E3, 99),
  (0x11700, 0x1171A, 1), (0x1171D, 0x1172B, 1), (0x11730, 0x11746, 1), (0x11800, 0x1183B, 34),
  (0x118A0, 0x118F2, 170), (0x118FF, 0x118FF, 170), (0x11900, 0x11906, 33), (0x11909, 0x11909, 33),
  (0x1190C, 0x11913, 33), (0x11915, 0x11916, 33), (0x11918, 0x11935, 33), (0x11937, 0x11938, 33),
  (0x1193B, 0x11946, 33), (0x11950, 0x11959, 33), (0x119A0, 0x119A7, 102), (0x119AA, 0x119D7, 102),
  (0x119DA, 0x119E4, 102), (0x11A00, 0x11A47, 173), (0x11A50, 0x11AA2, 141), (0x11AB0, 0x11ABF, 18),
  (0x11AC0, 0x11AF8, 125), (0x11B00, 0x11B09, 32), (0x11B60, 0x11B67, 133), (0x11BC0, 0x11BE1, 143),
  (0x11BF0, 0x11BF9, 143), (0x11C00, 0x11C08, 12), (0x11C0A, 0x11C36, 12), (0x11C38, 0x11C45, 12),
  (0x11C50, 0x11C6C, 12), (0x11C70, 0x11C8F, 87), (0x11C92, 0x11CA7, 87), (0x11CA9, 0x11CB6, 87),
  (0x11D00, 0x11D06, 88), (0x11D08, 0x11D09, 88), (0x11D0B, 0x11D36, 88), (0x11D3A, 0x11D3A, 88),
  (0x11D3C, 0x11D3D, 88), (0x11D3F, 0x11D47, 88), (0x11D50, 0x11D59, 88), (0x11D60, 0x11D65, 47),
  (0x11D67, 0x11D68, 47), (0x11D6A, 0x11D8E, 47), (0x11D90, 0x11D91, 47), (0x11D93, 0x11D98, 47),
  (0x11DA0, 0x11DA9, 47), (0x11DB0, 0x11DDB, 163), (0x11DE0, 0x11DE9, 163), (0x11EE0, 0x11EF8, 83),
  (0x11F00, 0x11F10, 65), (0x11F12, 0x11F3A, 65), (0x11F3E, 0x11F5A, 65), (0x11FB0, 0x11FB0, 79),
  (0x11FC0, 0x11FF1, 153), (0x11FFF, 0x11FFF, 153), (0x12000, 0x12399, 27), (0x12400, 0x1246E, 27),
  (0x12470, 0x12474, 27), (0x12480, 0x12543, 27), (0x12F90, 0x12FF2, 29), (0x13000, 0x13455, 36),
  (0x13460, 0x143FA, 36), (0x14400, 0x14646, 2), (0x16100, 0x16139, 49), (0x16800, 0x16A38, 7),
  (0x16A40, 0x16A5E, 97), (0x16A60, 0x16A69, 97), (0x16A6E, 0x16A6F, 97), (0x16A70, 0x16ABE, 154),
  (0x16AC0, 0x16AC9, 154), (0x16AD0, 0x16AED, 8), (0x16AF0, 0x16AF5, 8), (0x16B00, 0x16B45, 123),
  (0x16B50, 0x16B59, 123), (0x16B5B, 0x16B61, 123), (0x16B63, 0x16B77, 123),
  (0x16B7D, 0x16B8F, 123), (0x16D40, 0x16D79, 72), (0x16E40, 0x16E9A, 89), (0x16EA0, 0x16EB8, 11),
  (0x16EBB, 0x16ED3, 11), (0x16F00, 0x16F4A, 94), (0x16F4F, 0x16F87, 94), (0x16F8F, 0x16F9F, 94),
  (0x16FE0, 0x16FE0, 155), (0x16FE1, 0x16FE1, 106), (0x16FE2, 0x16FE3, 50), (0x16FE4, 0x16FE4, 68),
  (0x16FF0, 0x16FF6, 50), (0x17000, 0x18AFF, 155), (0x18B00, 0x18CD5, 68), (0x18CFF, 0x18CFF, 68),
  (0x18D00, 0x18D1E, 155), (0x18D80, 0x18DF2, 155), (0x1AFF0, 0x1AFF3, 64), (0x1AFF5, 0x1AFFB, 64),
  (0x1AFFD, 0x1AFFE, 64), (0x1B000, 0x1B000, 64), (0x1B001, 0x1B11F, 56), (0x1B120, 0x1B122, 64),
  (0x1B132, 0x1B132, 56), (0x1B150, 0x1B152, 56), (0x1B155, 0x1B155, 64), (0x1B164, 0x1B167, 64),
  (0x1B170, 0x1B2FB, 106), (0x1BC00, 0x1BC6A, 35), (0x1BC70, 0x1BC7C, 35), (0x1BC80, 0x1BC88, 35),
  (0x1BC90, 0x1BC99, 35), (0x1BC9C, 0x1BC9F, 35), (0x1BCA0, 0x1BCA3, 25), (0x1CC00, 0x1CCFC, 25),
  (0x1CD00, 0x1CEB3, 25), (0x1CEBA, 0x1CED0, 25), (0x1CEE0, 0x1CEF0, 25), (0x1CF00, 0x1CF2D, 58),
  (0x1CF30, 0x1CF46, 58), (0x1CF50, 0x1CFC3, 25), (0x1D000, 0x1D0F5, 25), (0x1D100, 0x1D126, 25),
  (0x1D129, 0x1D166, 25), (0x1D167, 0x1D169, 58), (0x1D16A, 0x1D17A, 25), (0x1D17B, 0x1D182, 58),
  (0x1D183, 0x1D184, 25), (0x1D185, 0x1D18B, 58), (0x1D18C, 0x1D1A9, 25), (0x1D1AA, 0x1D1AD, 58),
  (0x1D1AE, 0x1D1EA, 25), (0x1D200, 0x1D245, 45), (0x1D2C0, 0x1D2D3, 25), (0x1D2E0, 0x1D2F3, 25),
  (0x1D300, 0x1D356, 25), (0x1D360, 0x1D378, 25), (0x1D400, 0x1D454, 25), (0x1D456, 0x1D49C, 25),
  (0x1D49E, 0x1D49F, 25), (0x1D4A2, 0x1D4A2, 25), (0x1D4A5, 0x1D4A6, 25), (0x1D4A9, 0x1D4AC, 25),
  (0x1D4AE, 0x1D4B9, 25), (0x1D4BB, 0x1D4BB, 25), (0x1D4BD, 0x1D4C3, 25), (0x1D4C5, 0x1D505, 25),
  (0x1D507, 0x1D50A, 25), (0x1D50D, 0x1D514, 25), (0x1D516, 0x1D51C, 25), (0x1D51E, 0x1D539, 25),
  (0x1D53B, 0x1D53E, 25), (0x1D540, 0x1D544, 25), (0x1D546, 0x1D546, 25), (0x1D54A, 0x1D550, 25),
  (0x1D552, 0x1D6A5, 25), (0x1D6A8, 0x1D7CB, 25), (0x1D7CE, 0x1D7FF, 25), (0x1D800, 0x1DA8B, 137),
  (0x1DA9B, 0x1DA9F, 137), (0x1DAA1, 0x1DAAF, 137), (0x1DF00, 0x1DF1E, 74), (0x1DF25, 0x1DF2A, 74),
  (0x1E000, 0x1E006, 42), (0x1E008, 0x1E018, 42), (0x1E01B, 0x1E021, 42), (0x1E023, 0x1E024, 42),
  (0x1E026, 0x1E02A, 42), (0x1E030, 0x1E06D, 30), (0x1E08F, 0x1E08F, 30), (0x1E100, 0x1E12C, 107),
  (0x1E130, 0x1E13D, 107), (0x1E140, 0x1E149, 107), (0x1E14E, 0x1E14F, 107),
  (0x1E290, 0x1E2AE, 164), (0x1E2C0, 0x1E2F9, 169), (0x1E2FF, 0x1E2FF, 169),
  (0x1E4D0, 0x1E4F9, 101), (0x1E5D0, 0x1E5FA, 119), (0x1E5FF, 0x1E5FF, 119),
  (0x1E6C0, 0x1E6DE, 151), (0x1E6E0, 0x1E6F5, 151), (0x1E6FE, 0x1E6FF, 151), (0x1E7E0, 0x1E7E6, 39),
  (0x1E7E8, 0x1E7EB, 39), (0x1E7ED, 0x1E7EE, 39), (0x1E7F0, 0x1E7FE, 39), (0x1E800, 0x1E8C4, 91),
  (0x1E8C7, 0x1E8D6, 91), (0x1E900, 0x1E94B, 0), (0x1E950, 0x1E959, 0), (0x1E95E, 0x1E95F, 0),
  (0x1EC71, 0x1ECB4, 25), (0x1ED01, 0x1ED3D, 25), (0x1EE00, 0x1EE03, 3), (0x1EE05, 0x1EE1F, 3),
  (0x1EE21, 0x1EE22, 3), (0x1EE24, 0x1EE24, 3), (0x1EE27, 0x1EE27, 3), (0x1EE29, 0x1EE32, 3),
  (0x1EE34, 0x1EE37, 3), (0x1EE39, 0x1EE39, 3), (0x1EE3B, 0x1EE3B, 3), (0x1EE42, 0x1EE42, 3),
  (0x1EE47, 0x1EE47, 3), (0x1EE49, 0x1EE49, 3), (0x1EE4B, 0x1EE4B, 3), (0x1EE4D, 0x1EE4F, 3),
  (0x1EE51, 0x1EE52, 3), (0x1EE54, 0x1EE54, 3), (0x1EE57, 0x1EE57, 3), (0x1EE59, 0x1EE59, 3),
  (0x1EE5B, 0x1EE5B, 3), (0x1EE5D, 0x1EE5D, 3), (0x1EE5F, 0x1EE5F, 3), (0x1EE61, 0x1EE62, 3),
  (0x1EE64, 0x1EE64, 3), (0x1EE67, 0x1EE6A, 3), (0x1EE6C, 0x1EE72, 3), (0x1EE74, 0x1EE77, 3),
  (0x1EE79, 0x1EE7C, 3), (0x1EE7E, 0x1EE7E, 3), (0x1EE80, 0x1EE89, 3), (0x1EE8B, 0x1EE9B, 3),
  (0x1EEA1, 0x1EEA3, 3), (0x1EEA5, 0x1EEA9, 3), (0x1EEAB, 0x1EEBB, 3), (0x1EEF0, 0x1EEF1, 3),
  (0x1F000, 0x1F02B, 25), (0x1F030, 0x1F093, 25), (0x1F0A0, 0x1F0AE, 25), (0x1F0B1, 0x1F0BF, 25),
  (0x1F0C1, 0x1F0CF, 25), (0x1F0D1, 0x1F0F5, 25), (0x1F100, 0x1F1AD, 25), (0x1F1E6, 0x1F1FF, 25),
  (0x1F200, 0x1F200, 56), (0x1F201, 0x1F202, 25), (0x1F210, 0x1F23B, 25), (0x1F240, 0x1F248, 25),
  (0x1F250, 0x1F251, 25), (0x1F260, 0x1F265, 25), (0x1F300, 0x1F6D8, 25), (0x1F6DC, 0x1F6EC, 25),
  (0x1F6F0, 0x1F6FC, 25), (0x1F700, 0x1F7D9, 25), (0x1F7E0, 0x1F7EB, 25), (0x1F7F0, 0x1F7F0, 25),
  (0x1F800, 0x1F80B, 25), (0x1F810, 0x1F847, 25), (0x1F850, 0x1F859, 25), (0x1F860, 0x1F887, 25),
  (0x1F890, 0x1F8AD, 25), (0x1F8B0, 0x1F8BB, 25), (0x1F8C0, 0x1F8C1, 25), (0x1F8D0, 0x1F8D8, 25),
  (0x1F900, 0x1FA57, 25), (0x1FA60, 0x1FA6D, 25), (0x1FA70, 0x1FA7C, 25), (0x1FA80, 0x1FA8A, 25),
  (0x1FA8E, 0x1FAC6, 25), (0x1FAC8, 0x1FAC8, 25), (0x1FACD, 0x1FADC, 25), (0x1FADF, 0x1FAEA, 25),
  (0x1FAEF, 0x1FAF8, 25), (0x1FB00, 0x1FB92, 25), (0x1FB94, 0x1FBFA, 25), (0x20000, 0x2A6DF, 50),
  (0x2A700, 0x2B81D, 50), (0x2B820, 0x2CEAD, 50), (0x2CEB0, 0x2EBE0, 50), (0x2EBF0, 0x2EE5D, 50),
  (0x2F800, 0x2FA1D, 50), (0x30000, 0x3134A, 50), (0x31350, 0x33479, 50), (0xE0001, 0xE0001, 25),
  (0xE0020, 0xE007F, 25), (0xE0100, 0xE01EF, 58)]

/-- Ranges of code points in ascending order, each with the number of its script: the place of
the script in the list of names. -/
def runs : Array (Nat × Nat × Nat) := lowRuns ++ highRuns

/-- Ranges of characters that are used with other scripts than their own, with all the scripts
that they are used with. -/
def shared : List (Nat × Nat × List String) := [
  (0xB7, 0xB7, ["avestan", "carian", "coptic", "duployan", "elbasan", "georgian", "glagolitic",
    "gunjalagondi", "gothic", "greek", "han", "latin", "lydian", "mahajani", "oldpermic",
    "shavian"]),
  (0x2BC, 0x2BC, ["bengali", "cyrillic", "devanagari", "latin", "lisu", "thai", "toto"]),
  (0x2C7, 0x2C7, ["bopomofo", "latin"]),
  (0x2C9, 0x2CB, ["bopomofo", "latin"]),
  (0x2CD, 0x2CD, ["latin", "lisu"]),
  (0x2D7, 0x2D7, ["latin", "thai"]),
  (0x2D9, 0x2D9, ["bopomofo", "latin"]),
  (0x300, 0x300, ["cherokee", "coptic", "cyrillic", "greek", "latin", "oldpermic", "sunuwar",
    "taile"]),
  (0x301, 0x301, ["cherokee", "cyrillic", "greek", "latin", "osage", "sunuwar", "taile", "todhri"]),
  (0x302, 0x302, ["cherokee", "cyrillic", "latin", "tifinagh"]),
  (0x303, 0x303, ["glagolitic", "latin", "sunuwar", "syriac", "thai"]),
  (0x304, 0x304, ["caucasianalbanian", "cherokee", "coptic", "cyrillic", "gothic", "greek", "latin",
    "osage", "syriac", "tifinagh", "todhri"]),
  (0x305, 0x305, ["coptic", "elbasan", "glagolitic", "gothic", "katakana", "latin"]),
  (0x306, 0x306, ["cyrillic", "greek", "latin", "oldpermic", "tifinagh"]),
  (0x307, 0x307, ["coptic", "duployan", "hebrew", "latin", "oldpermic", "syriac", "taile",
    "tifinagh", "todhri"]),
  (0x308, 0x308, ["armenian", "cyrillic", "duployan", "gothic", "greek", "hebrew", "latin",
    "oldpermic", "syriac", "taile", "tifinagh"]),
  (0x309, 0x309, ["latin", "tifinagh"]),
  (0x30A, 0x30A, ["duployan", "latin", "syriac"]),
  (0x30B, 0x30B, ["cherokee", "cyrillic", "latin", "osage"]),
  (0x30C, 0x30C, ["cherokee", "latin", "taile"]),
  (0x30D, 0x30D, ["latin", "sunuwar"]),
  (0x30E, 0x30E, ["ethiopic", "latin"]),
  (0x310, 0x310, ["latin", "sunuwar"]),
  (0x311, 0x311, ["cyrillic", "latin", "todhri"]),
  (0x313, 0x313, ["greek", "latin", "oldpermic", "todhri"]),
  (0x323, 0x323, ["cherokee", "duployan", "katakana", "latin", "syriac", "tifinagh"]),
  (0x324, 0x324, ["cherokee", "duployan", "latin", "syriac"]),
  (0x325, 0x325, ["latin", "syriac"]),
  (0x32D, 0x32D, ["latin", "sunuwar", "syriac"]),
  (0x32E, 0x32E, ["latin", "syriac"]),
  (0x330, 0x330, ["cherokee", "latin", "syriac"]),
  (0x331, 0x331, ["caucasianalbanian", "cherokee", "gothic", "latin", "sunuwar", "syriac", "thai"]),
  (0x342, 0x342, ["greek"]),
  (0x345, 0x345, ["greek"]),
  (0x358, 0x358, ["latin", "osage"]),
  (0x35E, 0x35E, ["caucasianalbanian", "latin", "todhri"]),
  (0x363, 0x36F, ["latin"]),
  (0x374, 0x375, ["coptic", "greek"]),
  (0x483, 0x483, ["cyrillic", "oldpermic"]),
  (0x484, 0x484, ["cyrillic", "glagolitic"]),
  (0x485, 0x486, ["cyrillic", "latin"]),
  (0x487, 0x487, ["cyrillic", "glagolitic"]),
  (0x589, 0x589, ["armenian", "georgian", "glagolitic"]),
  (0x60C, 0x60C, ["arabic", "garay", "nko", "hanifirohingya", "syriac", "thaana", "yezidi"]),
  (0x61B, 0x61B, ["arabic", "garay", "nko", "hanifirohingya", "syriac", "thaana", "yezidi"]),
  (0x61C, 0x61C, ["arabic", "syriac", "thaana"]),
  (0x61F, 0x61F, ["adlam", "arabic", "garay", "nko", "hanifirohingya", "syriac", "thaana",
    "yezidi"]),
  (0x640, 0x640, ["adlam", "arabic", "mandaic", "manichaean", "olduyghur", "psalterpahlavi",
    "hanifirohingya", "sogdian", "syriac"]),
  (0x64B, 0x655, ["arabic", "syriac"]),
  (0x660, 0x669, ["arabic", "thaana", "yezidi"]),
  (0x670, 0x670, ["arabic", "syriac"]),
  (0x6D4, 0x6D4, ["arabic", "hanifirohingya"]),
  (0x951, 0x951, ["bengali", "devanagari", "grantha", "gujarati", "gurmukhi", "kannada", "latin",
    "malayalam", "nandinagari", "newa", "oriya", "sharada", "tamil", "telugu", "tirhuta"]),
  (0x952, 0x952, ["bengali", "devanagari", "grantha", "gujarati", "gurmukhi", "kannada", "latin",
    "malayalam", "newa", "oriya", "tamil", "telugu", "tirhuta"]),
  (0x964, 0x964, ["bengali", "devanagari", "dogra", "gunjalagondi", "masaramgondi", "grantha",
    "gujarati", "gurmukhi", "kannada", "mahajani", "malayalam", "nandinagari", "olonal", "oriya",
    "khudawadi", "sinhala", "sylotinagri", "takri", "tamil", "telugu", "tirhuta"]),
  (0x965, 0x965, ["bengali", "devanagari", "dogra", "gunjalagondi", "masaramgondi", "grantha",
    "gujarati", "gurungkhema", "gurmukhi", "kannada", "limbu", "mahajani", "malayalam",
    "nandinagari", "olonal", "oriya", "khudawadi", "sinhala", "sylotinagri", "takri", "tamil",
    "telugu", "tirhuta"]),
  (0x966, 0x96F, ["devanagari", "dogra", "kaithi", "mahajani"]),
  (0x9E6, 0x9EF, ["bengali", "chakma", "sylotinagri"]),
  (0xA66, 0xA6F, ["gurmukhi", "multani"]),
  (0xAE6, 0xAEF, ["gujarati", "khojki"]),
  (0xBE6, 0xBF3, ["grantha", "tamil"]),
  (0xCE6, 0xCEF, ["kannada", "nandinagari", "tulutigalari"]),
  (0x1040, 0x1049, ["chakma", "myanmar", "taile"]),
  (0x10FB, 0x10FB, ["georgian", "glagolitic", "latin"]),
  (0x16EB, 0x16ED, ["runic"]),
  (0x1735, 0x1736, ["buhid", "hanunoo", "tagbanwa", "tagalog"]),
  (0x1802, 0x1803, ["mongolian", "phagspa"]),
  (0x1805, 0x1805, ["mongolian", "phagspa"]),
  (0x1CD0, 0x1CD0, ["bengali", "devanagari", "grantha", "kannada"]),
  (0x1CD1, 0x1CD1, ["devanagari"]),
  (0x1CD2, 0x1CD2, ["bengali", "devanagari", "grantha", "kannada"]),
  (0x1CD3, 0x1CD3, ["devanagari", "grantha", "kannada"]),
  (0x1CD4, 0x1CD4, ["devanagari"]),
  (0x1CD5, 0x1CD5, ["bengali", "devanagari", "newa", "telugu", "tirhuta"]),
  (0x1CD6, 0x1CD6, ["bengali", "devanagari", "telugu"]),
  (0x1CD7, 0x1CD7, ["devanagari", "newa", "sharada"]),
  (0x1CD8, 0x1CD8, ["bengali", "devanagari", "newa", "telugu"]),
  (0x1CD9, 0x1CD9, ["devanagari", "sharada"]),
  (0x1CDA, 0x1CDA, ["devanagari", "kannada", "malayalam", "oriya", "tamil", "telugu"]),
  (0x1CDB, 0x1CDB, ["devanagari"]),
  (0x1CDC, 0x1CDD, ["devanagari", "sharada"]),
  (0x1CDE, 0x1CDF, ["devanagari"]),
  (0x1CE0, 0x1CE0, ["devanagari", "sharada"]),
  (0x1CE1, 0x1CE1, ["bengali", "devanagari"]),
  (0x1CE2, 0x1CE2, ["devanagari", "newa", "tirhuta"]),
  (0x1CE3, 0x1CE8, ["devanagari"]),
  (0x1CE9, 0x1CE9, ["devanagari", "nandinagari", "newa"]),
  (0x1CEA, 0x1CEA, ["bengali", "devanagari", "sharada"]),
  (0x1CEB, 0x1CEB, ["devanagari", "newa"]),
  (0x1CEC, 0x1CEC, ["devanagari"]),
  (0x1CED, 0x1CED, ["bengali", "devanagari", "newa", "sharada"]),
  (0x1CEE, 0x1CF1, ["devanagari"]),
  (0x1CF2, 0x1CF2, ["bengali", "devanagari", "grantha", "kannada", "malayalam", "nandinagari",
    "oriya", "sinhala", "telugu", "tirhuta", "tulutigalari"]),
  (0x1CF3, 0x1CF3, ["devanagari", "grantha"]),
  (0x1CF4, 0x1CF4, ["devanagari", "grantha", "kannada", "tulutigalari"]),
  (0x1CF5, 0x1CF6, ["bengali", "devanagari"]),
  (0x1CF7, 0x1CF7, ["bengali"]),
  (0x1CF8, 0x1CF9, ["devanagari", "grantha"]),
  (0x1CFA, 0x1CFA, ["nandinagari"]),
  (0x1DC0, 0x1DC1, ["greek"]),
  (0x1DF8, 0x1DF8, ["cyrillic", "latin", "syriac"]),
  (0x1DFA, 0x1DFA, ["syriac"]),
  (0x202F, 0x202F, ["latin", "mongolian", "phagspa"]),
  (0x204F, 0x204F, ["adlam", "arabic"]),
  (0x205A, 0x205A, ["carian", "georgian", "glagolitic", "oldhungarian", "lycian", "oldturkic"]),
  (0x205D, 0x205D, ["carian", "greek", "oldhungarian", "meroitichieroglyphs"]),
  (0x20F0, 0x20F0, ["devanagari", "grantha", "latin"]),
  (0x2E17, 0x2E17, ["coptic", "latin"]),
  (0x2E30, 0x2E30, ["avestan", "oldturkic"]),
  (0x2E31, 0x2E31, ["avestan", "carian", "georgian", "oldhungarian", "kaithi", "lydian",
    "samaritan"]),
  (0x2E3C, 0x2E3C, ["duployan"]),
  (0x2E41, 0x2E41, ["adlam", "arabic", "oldhungarian"]),
  (0x2E43, 0x2E43, ["cyrillic", "glagolitic"]),
  (0x2FF0, 0x2FFF, ["han", "tangut"]),
  (0x3001, 0x3001, ["bopomofo", "hangul", "han", "hiragana", "katakana", "mongolian", "yi"]),
  (0x3002, 0x3002, ["bopomofo", "hangul", "han", "hiragana", "katakana", "mongolian", "phagspa",
    "yi"]),
  (0x3003, 0x3003, ["bopomofo", "hangul", "han", "hiragana", "katakana"]),
  (0x3006, 0x3006, ["han"]),
  (0x3008, 0x3009, ["bopomofo", "hangul", "han", "hiragana", "katakana", "mongolian", "tibetan",
    "yi"]),
  (0x300A, 0x300B, ["bopomofo", "hangul", "han", "hiragana", "katakana", "lisu", "mongolian",
    "tibetan", "yi"]),
  (0x300C, 0x3011, ["bopomofo", "hangul", "han", "hiragana", "katakana", "yi"]),
  (0x3013, 0x3013, ["bopomofo", "hangul", "han", "hiragana", "katakana"]),
  (0x3014, 0x301B, ["bopomofo", "hangul", "han", "hiragana", "katakana", "yi"]),
  (0x301C, 0x301F, ["bopomofo", "hangul", "han", "hiragana", "katakana"]),
  (0x302A, 0x302D, ["bopomofo", "han"]),
  (0x3030, 0x3030, ["bopomofo", "hangul", "han", "hiragana", "katakana"]),
  (0x3031, 0x3035, ["hiragana", "katakana"]),
  (0x3037, 0x3037, ["bopomofo", "hangul", "han", "hiragana", "katakana"]),
  (0x303C, 0x303D, ["han", "hiragana", "katakana"]),
  (0x303E, 0x303F, ["han"]),
  (0x3099, 0x309C, ["hiragana", "katakana"]),
  (0x30A0, 0x30A0, ["hiragana", "katakana"]),
  (0x30FB, 0x30FB, ["bopomofo", "hangul", "han", "hiragana", "katakana", "yi"]),
  (0x30FC, 0x30FC, ["hiragana", "katakana"]),
  (0x3190, 0x319F, ["han"]),
  (0x31C0, 0x31E5, ["han"]),
  (0x31EF, 0x31EF, ["han", "tangut"]),
  (0x3220, 0x3247, ["han"]),
  (0x3280, 0x32B0, ["han"]),
  (0x32C0, 0x32CB, ["han"]),
  (0x32FF, 0x32FF, ["han"]),
  (0x3358, 0x3370, ["han"]),
  (0x337B, 0x337F, ["han"]),
  (0x33E0, 0x33FE, ["han"]),
  (0xA66F, 0xA66F, ["cyrillic", "glagolitic"]),
  (0xA700, 0xA707, ["han", "latin"]),
  (0xA830, 0xA832, ["devanagari", "dogra", "gujarati", "gurmukhi", "khojki", "kannada", "kaithi",
    "mahajani", "malayalam", "modi", "nandinagari", "sharada", "khudawadi", "takri", "tirhuta",
    "tulutigalari"]),
  (0xA833, 0xA835, ["devanagari", "dogra", "gujarati", "gurmukhi", "khojki", "kannada", "kaithi",
    "mahajani", "modi", "nandinagari", "sharada", "khudawadi", "takri", "tirhuta", "tulutigalari"]),
  (0xA836, 0xA837, ["devanagari", "dogra", "gujarati", "gurmukhi", "khojki", "kaithi", "mahajani",
    "modi", "khudawadi", "takri", "tirhuta"]),
  (0xA838, 0xA838, ["devanagari", "dogra", "gujarati", "gurmukhi", "khojki", "kaithi", "mahajani",
    "modi", "sharada", "khudawadi", "takri", "tirhuta"]),
  (0xA839, 0xA839, ["devanagari", "dogra", "gujarati", "gurmukhi", "khojki", "kaithi", "mahajani",
    "modi", "khudawadi", "takri", "tirhuta"]),
  (0xA8F1, 0xA8F1, ["bengali", "devanagari", "tulutigalari"]),
  (0xA8F3, 0xA8F3, ["devanagari", "tamil"]),
  (0xA92E, 0xA92E, ["kayahli", "latin", "myanmar"]),
  (0xA9CF, 0xA9CF, ["buginese", "javanese"]),
  (0xFD3E, 0xFD3F, ["arabic", "nko"]),
  (0xFDF2, 0xFDF2, ["arabic", "thaana"]),
  (0xFDFD, 0xFDFD, ["arabic", "thaana"]),
  (0xFE45, 0xFE46, ["bopomofo", "hangul", "han", "hiragana", "katakana"]),
  (0xFF61, 0xFF65, ["bopomofo", "hangul", "han", "hiragana", "katakana", "yi"]),
  (0xFF70, 0xFF70, ["hiragana", "katakana"]),
  (0xFF9E, 0xFF9F, ["hiragana", "katakana"]),
  (0x10100, 0x10101, ["cyprominoan", "cypriot", "linearb"]),
  (0x10102, 0x10102, ["cypriot", "linearb"]),
  (0x10107, 0x10133, ["cypriot", "lineara", "linearb"]),
  (0x10137, 0x1013F, ["cypriot", "linearb"]),
  (0x102E0, 0x102FB, ["arabic", "coptic"]),
  (0x10AF2, 0x10AF2, ["manichaean", "olduyghur"]),
  (0x11301, 0x11301, ["grantha", "tamil"]),
  (0x11303, 0x11303, ["grantha", "tamil"]),
  (0x1133B, 0x1133C, ["grantha", "tamil"]),
  (0x11FD0, 0x11FD1, ["grantha", "tamil"]),
  (0x11FD3, 0x11FD3, ["grantha", "tamil"]),
  (0x1BCA0, 0x1BCA3, ["duployan"]),
  (0x1D360, 0x1D371, ["han"]),
  (0x1F250, 0x1F251, ["han"])]

end Highlighting.Script
