import BomTable.Xml.Alphabet.Cyrillic
import BomTable.Xml.Alphabet.Greek
import BomTable.Xml.Alphabet.Latin
import BomTable.Xml.Alphabet.Semitic
import BomTable.Xml.Alphabet.Thai

/-!
All alphabets by their names. Of encodings that do not serve for documents the names alone are
known: those whose characters take several octets, and those that write the letters of a declaration
in another way than the declaration itself.
-/

namespace BomTable.Xml.Alphabet

/-- Every octet is the number of its character. -/
def plain : Alphabet where
  names := ["latin_1", "charmap", "raw_unicode_escape", "unicode_escape"]
  aliases := ["cp819", "csisolatin1", "ibm819", "iso8859", "iso8859_1", "iso_8859_1",
    "iso_8859_1_1987", "iso_ir_100", "l1", "latin", "latin1"]

/-- Characters below 128 only; a name for a longer encoding stands for this part of it. -/
def half : Alphabet where
  names := ["ascii", "utf_8", "utf_8_sig", "iso2022_jp", "iso2022_jp_1", "iso2022_jp_2",
    "iso2022_jp_2004", "iso2022_jp_3", "iso2022_jp_ext"]
  aliases := ["ansi_x3.4_1968", "ansi_x3.4_1986", "ansi_x3_4_1968", "cp367", "csascii", "ibm367",
    "iso646_us", "iso_646.irv_1991", "iso_ir_6", "us", "us_ascii", "cp65001", "u8", "utf", "utf8",
    "utf8_ucs2", "utf8_ucs4", "csiso2022jp", "iso2022jp", "iso_2022_jp", "iso2022jp_1",
    "iso_2022_jp_1", "iso2022jp_2", "iso_2022_jp_2", "iso2022jp_2004", "iso_2022_jp_2004",
    "iso2022jp_3", "iso_2022_jp_3", "iso2022jp_ext", "iso_2022_jp_ext"]
  letters := noLetters

/-- Another part of a longer encoding, in which the tilde begins a character. -/
def withoutTilde : Alphabet where
  names := ["hz"]
  aliases := ["hz_gb", "hz_gb_2312", "hzgb"]
  letters := noLetters
  lacking := some '~'

def all : List Alphabet :=
  [plain, half, withoutTilde] ++ latin ++ cyrillic ++ greek ++ semitic ++ thai

/-- Whether a plain name stands for an encoding of which some octets below 128 are other letters. -/
def isContrary : String → Bool :=
  isAmong
    ["cp037", "cp1026", "cp1140", "cp273", "cp424", "cp500", "cp864", "cp875", "mac_arabic",
      "mac_farsi"]
    ["csibm037", "ebcdic_cp_ca", "ebcdic_cp_nl", "ebcdic_cp_us", "ebcdic_cp_wt", "ibm037",
      "ibm039", "csibm1026", "ibm1026", "ibm1140", "csibm273", "ibm273", "csibm424",
      "ebcdic_cp_he", "ibm424", "csibm500", "ebcdic_cp_be", "ebcdic_cp_ch", "ibm500", "csibm864",
      "ibm864"]

/-- Whether a plain name stands for an encoding in which some characters take several octets, or
which has characters only for some runs of octets. -/
def isLong : String → Bool :=
  isAmong
    ["big5", "big5hkscs", "cp932", "cp949", "cp950", "euc_jis_2004", "euc_jisx0213", "euc_jp",
      "euc_kr", "gb18030", "gb2312", "gbk", "idna", "iso2022_kr", "johab", "punycode", "shift_jis",
      "shift_jis_2004", "shift_jisx0213", "undefined", "utf_16", "utf_16_be", "utf_16_le", "utf_32",
      "utf_32_be", "utf_32_le", "utf_7"]
    ["big5_tw", "csbig5", "x_mac_trad_chinese", "big5_hkscs", "hkscs", "ms932", "ms_kanji",
      "mskanji", "ms949", "uhc", "ms950", "euc_jis2004", "eucjis2004", "jisx0213", "eucjisx0213",
      "eucjp", "u_jis", "ujis", "euckr", "korean", "ks_c_5601", "ks_c_5601_1987", "ks_x_1001",
      "ksc5601", "ksx1001", "x_mac_korean", "gb18030_2000", "chinese", "csiso58gb231280",
      "euc_cn", "euccn", "eucgb2312_cn", "gb2312_1980", "gb2312_80", "iso_ir_58",
      "x_mac_simp_chinese", "cp936", "ms936", "csiso2022kr", "iso2022kr", "iso_2022_kr", "cp1361",
      "ms1361", "csshiftjis", "s_jis", "shiftjis", "sjis", "x_mac_japanese", "s_jis_2004",
      "shiftjis2004", "sjis_2004", "s_jisx0213", "shiftjisx0213", "sjisx0213", "u16", "utf16",
      "unicodebigunmarked", "utf_16be", "unicodelittleunmarked", "utf_16le", "u32", "utf32",
      "utf_32be", "utf_32le", "u7", "unicode_1_1_utf_7", "utf7"]

/-- What the name of an encoding is known to stand for. -/
inductive Meaning where
  | alphabet (a : Alphabet)
  | contrary
  | long

def meaning? (name : String) : Option Meaning :=
  let s := plainName name
  match all.find? fun a => a.isNamed s with
  | some a => some (.alphabet a)
  | none => if isContrary s then some .contrary else if isLong s then some .long else none

end BomTable.Xml.Alphabet
