import Assay.Text.CodePage.Dos
import Assay.Text.CodePage.Iso
import Assay.Text.CodePage.Macintosh
import Assay.Text.CodePage.Regional
import Assay.Text.CodePage.Windows

/-!
# Character sets by name

A document may name its character set. Only sets of single bytes can be used for the documents
read here; a name of another set, and a name of none, is a fault, and the sets whose lower half is
not that of ASCII are told apart because they can be named but not used.
-/

namespace Assay.Text

/-- ASCII. The sets that leave it by escape sequences and the names of UTF-8 that are not its
registered one count as ASCII too. -/
def asciiPage : CodePage where
  names :=
    ["ansi_x3.4_1968", "ansi_x3.4_1986", "ansi_x3_4_1968", "ascii", "cp367", "cp65001", "csascii",
     "csiso2022jp", "ibm367", "iso2022_jp", "iso2022_jp_1", "iso2022_jp_2", "iso2022_jp_2004",
     "iso2022_jp_3", "iso2022_jp_ext", "iso2022jp", "iso2022jp_1", "iso2022jp_2", "iso2022jp_2004",
     "iso2022jp_3", "iso2022jp_ext", "iso646_us", "iso_2022_jp", "iso_2022_jp_1", "iso_2022_jp_2",
     "iso_2022_jp_2004", "iso_2022_jp_3", "iso_2022_jp_ext", "iso_646.irv_1991", "iso_ir_6", "u8",
     "us", "us_ascii", "utf", "utf8", "utf8_ucs2", "utf8_ucs4", "utf_8", "utf_8_sig"]
  upper := ""

/-- ASCII without the tilde, which opens a shift in this set. -/
def shiftedAsciiPage : CodePage where
  names := ["hz", "hz_gb", "hz_gb_2312", "hzgb"]
  upper := ""
  lacking := ['~']

/-- The first part of ISO 8859, whose bytes are the code points. -/
def latin1Page : CodePage where
  names :=
    ["charmap", "cp819", "csisolatin1", "ibm819", "iso8859", "iso8859_1", "iso_8859_1",
     "iso_8859_1_1987", "iso_ir_100", "l1", "latin", "latin1", "latin_1", "raw_unicode_escape",
     "unicode_escape"]
  upper := String.ofList ((List.range 128).map fun i => Char.ofNat (128 + i))

/-- The code pages that can be named. -/
def codePages : List CodePage :=
  asciiPage :: shiftedAsciiPage :: latin1Page ::
    (isoPages ++ windowsPages ++ dosPages ++ macintoshPages ++ regionalPages)

/-- The names of sets with characters of several bytes. -/
def wideNames : List String :=
  ["big5", "big5_hkscs", "big5_tw", "big5hkscs", "chinese", "cp1361", "cp932", "cp936", "cp949",
   "cp950", "csbig5", "csiso2022kr", "csiso58gb231280", "csshiftjis", "euc_cn", "euc_jis2004",
   "euc_jis_2004", "euc_jisx0213", "euc_jp", "euc_kr", "euccn", "eucgb2312_cn", "eucjis2004",
   "eucjisx0213", "eucjp", "euckr", "gb18030", "gb18030_2000", "gb2312", "gb2312_1980", "gb2312_80",
   "gbk", "hkscs", "iso2022_kr", "iso2022kr", "iso_2022_kr", "iso_ir_58", "jisx0213", "johab",
   "korean", "ks_c_5601", "ks_c_5601_1987", "ks_x_1001", "ksc5601", "ksx1001", "ms1361", "ms932",
   "ms936", "ms949", "ms950", "ms_kanji", "mskanji", "s_jis", "s_jis_2004", "s_jisx0213",
   "shift_jis", "shift_jis_2004", "shift_jisx0213", "shiftjis", "shiftjis2004", "shiftjisx0213",
   "sjis", "sjis_2004", "sjisx0213", "u16", "u32", "u7", "u_jis", "uhc", "ujis",
   "unicode_1_1_utf_7", "unicodebigunmarked", "unicodelittleunmarked", "utf16", "utf32", "utf7",
   "utf_16", "utf_16_be", "utf_16_le", "utf_16be", "utf_16le", "utf_32", "utf_32_be", "utf_32_le",
   "utf_32be", "utf_32le", "utf_7", "x_mac_japanese", "x_mac_korean", "x_mac_simp_chinese",
   "x_mac_trad_chinese"]

/-- The names of sets that keep a character of markup elsewhere than ASCII does. -/
def foreignNames : List String :=
  ["cp037", "cp1026", "cp1140", "cp273", "cp424", "cp500", "cp864", "cp875", "csibm037",
   "csibm1026", "csibm273", "csibm424", "csibm500", "csibm864", "ebcdic_cp_be", "ebcdic_cp_ca",
   "ebcdic_cp_ch", "ebcdic_cp_he", "ebcdic_cp_nl", "ebcdic_cp_us", "ebcdic_cp_wt", "ibm037",
   "ibm039", "ibm1026", "ibm1140", "ibm273", "ibm424", "ibm500", "ibm864", "mac_arabic",
   "mac_farsi"]

/-- The names of conversions that give no text. -/
def conversionNames : List String :=
  ["base64", "base64_codec", "base_64", "bz2", "bz2_codec", "hex", "hex_codec", "quopri",
   "quopri_codec", "quoted_printable", "quotedprintable", "rot13", "rot_13", "uu", "uu_codec",
   "zip", "zlib", "zlib_codec"]

/-- The names in which no dot may stand for an underscore. -/
def undottedNames : List String :=
  ["base64_codec", "bz2_codec", "euc_jis_2004", "euc_jisx0213", "euc_jp", "euc_kr", "hex_codec",
   "hp_roman8", "iso2022_jp", "iso2022_jp_1", "iso2022_jp_2", "iso2022_jp_2004", "iso2022_jp_3",
   "iso2022_jp_ext", "iso2022_kr", "iso8859_10", "iso8859_11", "iso8859_13", "iso8859_14",
   "iso8859_15", "iso8859_16", "iso8859_2", "iso8859_3", "iso8859_4", "iso8859_5", "iso8859_6",
   "iso8859_7", "iso8859_8", "iso8859_9", "koi8_r", "koi8_t", "koi8_u", "latin_1", "mac_arabic",
   "mac_croatian", "mac_cyrillic", "mac_farsi", "mac_greek", "mac_iceland", "mac_latin2",
   "mac_roman", "mac_romanian", "mac_turkish", "quopri_codec", "raw_unicode_escape", "rot_13",
   "shift_jis", "shift_jis_2004", "shift_jisx0213", "tis_620", "unicode_escape", "utf_16",
   "utf_16_be", "utf_16_le", "utf_32", "utf_32_be", "utf_32_le", "utf_7", "utf_8", "utf_8_sig",
   "uu_codec", "zlib_codec"]

/-- Why a named character set cannot be used. A name is as it was given. -/
inductive CharacterSetFault
  | unknown (name : String)
  | conversion (name : String)
  | wide
  /-- The set is one of domain names, which has no lenient reading. -/
  | domainNames (name : String)
  /-- The set is one of encoded domain labels, which are ASCII. -/
  | domainLabels
  /-- The set is named only to be refused. -/
  | refused (name : String)
  deriving DecidableEq, Repr

/-- The wording of a fault. -/
def CharacterSetFault.message : CharacterSetFault → String
  | .unknown name => "unknown encoding: " ++ name
  | .conversion name =>
    "'" ++ name ++ "' is not a text encoding; use codecs.decode() to handle arbitrary codecs"
  | .wide => "multi-byte encodings are not supported"
  | .domainNames name =>
    "decoding with '" ++ name ++
      "' codec failed (UnicodeError: Unsupported error handling replace)"
  | .domainLabels =>
    "'ascii' codec can't decode byte 0x80 in position 82: ordinal not in range(128)"
  | .refused name =>
    "decoding with '" ++ name ++ "' codec failed (UnicodeError: undefined encoding)"

/-- The plain form of a name: small letters, and one underscore for every run of marks between
letters, digits and dots. -/
def plainName (name : List Char) : List Char :=
  let isKept := fun (c : Char) => c.isAlphanum || c == '.'
  let step := fun (c : Char) (later : List Char) =>
    if isKept c then c.toLower :: later
    else if later.isEmpty || later.head? == some '_' then later
    else '_' :: later
  (name.dropWhile fun c => !isKept c).foldr step []

/-- The forms under which a name is looked up. -/
def nameForms (name : String) : List String :=
  let plain := plainName name.toList
  let undotted := String.ofList (plain.map fun c => if c == '.' then '_' else c)
  if plain.contains '.' && !undottedNames.contains undotted then [String.ofList plain, undotted]
  else [String.ofList plain]

/-- The code page of a name; none if there is one but it cannot be used. -/
def codePageNamed (name : String) : Except CharacterSetFault (Option CodePage) :=
  let forms := nameForms name
  let isIn := fun (names : List String) => forms.any names.contains
  match codePages.find? fun page => isIn page.names with
  | some page => .ok (some page)
  | none =>
    if isIn foreignNames then .ok none
    else if isIn wideNames then .error .wide
    else if isIn conversionNames then .error (.conversion name)
    else if isIn ["idna"] then .error (.domainNames name)
    else if isIn ["punycode"] then .error .domainLabels
    else if isIn ["undefined"] then .error (.refused name)
    else .error (.unknown name)

end Assay.Text
