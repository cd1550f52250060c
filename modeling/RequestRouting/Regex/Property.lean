import RequestRouting.Regex.CharSet
import RequestRouting.Text.CharLists
import RequestRouting.Text.WritingSystem

/-!
# Named character properties

The names under which a class escape asks for a general category, for a property that a character
has or has not, or for a writing system. Names are compared without regard to case, blanks,
hyphens, underscores and a leading `is`. The classes of text segmentation and the ages of characters
are left out.
-/

namespace RequestRouting.Regex

open Text

/-- The form in which property names are compared. -/
def normalizedName (name : List Char) : String :=
  let bare (name : List Char) : String := String.ofList <|
    (name.filter fun c => c.toNat < 128 && c != ' ' && c != '_' && c != '-').map Char.toLower
  match name with
  | i :: s :: rest =>
      if i.toLower == 'i' && s.toLower == 's' then
        -- `isc` is the name of another property, not of the category `c`.
        if bare rest == "c" then "isc" else bare rest
      else bare name
  | _ => bare name

/-- The categories that a general category name covers. -/
def categoryNamed? : String → Option (Category → Bool)
  | "c" | "other" => some Category.isOther
  | "cc" | "control" | "cntrl" => some (· == .cc)
  | "cf" | "format" => some (· == .cf)
  | "cn" | "unassigned" => some (· == .cn)
  | "co" | "privateuse" => some (· == .co)
  | "cs" | "surrogate" => some (· == .cs)
  | "l" | "letter" => some Category.isLetter
  | "lc" | "casedletter" => some fun c => c == .lu || c == .ll || c == .lt
  | "ll" | "lowercaseletter" => some (· == .ll)
  | "lm" | "modifierletter" => some (· == .lm)
  | "lo" | "otherletter" => some (· == .lo)
  | "lt" | "titlecaseletter" => some (· == .lt)
  | "lu" | "uppercaseletter" => some (· == .lu)
  | "m" | "mark" | "combiningmark" => some Category.isMark
  | "mc" | "spacingmark" => some (· == .mc)
  | "me" | "enclosingmark" => some (· == .me)
  | "mn" | "nonspacingmark" => some (· == .mn)
  | "n" | "number" => some Category.isNumber
  | "nd" | "decimalnumber" | "digit" => some (· == .nd)
  | "nl" | "letternumber" => some (· == .nl)
  | "no" | "othernumber" => some (· == .no)
  | "p" | "punctuation" | "punct" => some Category.isPunctuation
  | "pc" | "connectorpunctuation" => some (· == .pc)
  | "pd" | "dashpunctuation" => some (· == .pd)
  | "pe" | "closepunctuation" => some (· == .pe)
  | "pf" | "finalpunctuation" => some (· == .pf)
  | "pi" | "initialpunctuation" => some (· == .pi)
  | "po" | "otherpunctuation" => some (· == .po)
  | "ps" | "openpunctuation" => some (· == .ps)
  | "s" | "symbol" => some Category.isSymbol
  | "sc" | "currencysymbol" => some (· == .sc)
  | "sk" | "modifiersymbol" => some (· == .sk)
  | "sm" | "mathsymbol" => some (· == .sm)
  | "so" | "othersymbol" => some (· == .so)
  | "z" | "separator" => some Category.isSeparator
  | "zl" | "lineseparator" => some (· == .zl)
  | "zp" | "paragraphseparator" => some (· == .zp)
  | "zs" | "spaceseparator" => some (· == .zs)
  | _ => none

/-! ## Properties that a character has or has not -/

/-- The characters of some categories. -/
def ofCategories (categories : List Category) : CharSet := .category categories.contains

/-- Lower case letters and what counts as such. -/
def lowercase : CharSet := .union (ofCategories [.ll]) (.ofTable CharLists.otherLowercase)

/-- Upper case letters and what counts as such. -/
def uppercase : CharSet := .union (ofCategories [.lu]) (.ofTable CharLists.otherUppercase)

/-- Characters that are different in lower case. -/
def lowercasing : CharSet :=
  .symmDiff (ofCategories [.lu, .lt]) (.ofTable CharLists.lowercasingExceptions)

/-- Characters that are different in upper case. -/
def uppercasing : CharSet :=
  .symmDiff (ofCategories [.ll, .lt]) (.ofTable CharLists.uppercasingExceptions)

/-- Characters that are different in title case. -/
def titlecasing : CharSet := .symmDiff uppercasing (.ofTable CharLists.titlecasingExceptions)

/-- Characters that stay with the one before them. -/
def graphemeExtend : CharSet :=
  .union (ofCategories [.mn, .me]) (.codes extenderExtras)

/-- Characters that start what a reader takes for one character. -/
def graphemeBase : CharSet :=
  .compl (.union (ofCategories [.cc, .cf, .cs, .co, .cn, .zl, .zp]) graphemeExtend)

/-- Characters that are kept for the syntax around identifiers. -/
def patternCharacters : CharSet :=
  .union (.ofTable CharLists.patternSyntax) (.ofTable CharLists.patternBlanks)

/-- First characters of identifiers. -/
def idStart : CharSet :=
  .diff (.union (.category fun c => c.isLetter || c == .nl) (.ofTable CharLists.otherIdStarts))
    patternCharacters

/-- Characters of identifiers. -/
def idContinue : CharSet :=
  let parts := .union (ofCategories [.mn, .mc, .nd, .pc]) (.ofTable CharLists.otherIdParts)
  .diff (.union idStart parts) patternCharacters

/-- Characters without a shape of their own. -/
def ignorable : CharSet :=
  let formats := .union (ofCategories [.cf]) (.ofTable CharLists.variationSelectors)
  -- Annotations and the controls of hieroglyphs are shown.
  let shown := .union (.codes [(0xFFF9, 0xFFFB), (0x13430, 0x1343F)])
    (.ofTable CharLists.prependedMarks)
  .union (.diff formats shown) (.ofTable CharLists.otherIgnorables)

/-- The set of a property that a character has or has not. -/
def traitNamed? : String → Option CharSet
  | "ahex" | "asciihexdigit" => some (CharSet.ranges [('0', '9'), ('A', 'F'), ('a', 'f')])
  | "alpha" | "alphabetic" => some .alphabetic
  | "bidic" | "bidicontrol" => some (.ofTable CharLists.bidiControls)
  | "bidim" | "bidimirrored" => some (.ofTable CharLists.mirrored)
  | "ci" | "caseignorable" =>
      some (.union (ofCategories [.lm, .mn, .me, .sk, .cf]) (.ofTable CharLists.midWord))
  | "cased" => some (.union (.union lowercase uppercase) (ofCategories [.lt]))
  | "cwcf" | "changeswhencasefolded" =>
      some (.symmDiff lowercasing (.ofTable CharLists.casefoldingExceptions))
  | "cwcm" | "changeswhencasemapped" =>
      some (.union (.union lowercasing uppercasing) titlecasing)
  | "cwl" | "changeswhenlowercased" => some lowercasing
  | "cwt" | "changeswhentitlecased" => some titlecasing
  | "cwu" | "changeswhenuppercased" => some uppercasing
  | "dash" => some (.union (ofCategories [.pd]) (.ofTable CharLists.otherDashes))
  | "di" | "defaultignorablecodepoint" => some ignorable
  | "dep" | "deprecated" => some (.ofTable CharLists.deprecated)
  | "dia" | "diacritic" => some (.ofTable CharLists.diacritics)
  | "emoji" => some (.ofTable CharLists.emoji)
  | "ecomp" | "emojicomponent" => some (.ofTable CharLists.emojiComponents)
  | "emod" | "emojimodifier" => some (.codes [(0x1F3FB, 0x1F3FF)])
  | "ebase" | "emojimodifierbase" => some (.ofTable CharLists.emojiModifierBases)
  | "epres" | "emojipresentation" => some (.ofTable CharLists.emojiPresentations)
  | "extpict" | "extendedpictographic" => some (.ofTable CharLists.pictographs)
  | "ext" | "extender" => some (.ofTable CharLists.extenders)
  | "grbase" | "graphemebase" => some graphemeBase
  | "grext" | "graphemeextend" => some graphemeExtend
  | "grlink" | "graphemelink" => some (.ofTable CharLists.linkers)
  | "hex" | "hexdigit" => some (.ofTable CharLists.hexDigits)
  | "hyphen" => some (.ofTable CharLists.hyphens)
  | "idsb" | "idsbinaryoperator" => some (.codes [(0x2FF0, 0x2FF1), (0x2FF4, 0x2FFB)])
  | "idst" | "idstrinaryoperator" => some (.codes [(0x2FF2, 0x2FF3)])
  | "idc" | "idcontinue" => some idContinue
  | "ids" | "idstart" => some idStart
  | "ideo" | "ideographic" => some (.ofTable CharLists.ideographs)
  | "joinc" | "joincontrol" => some (.codes [(0x200C, 0x200D)])
  | "loe" | "logicalorderexception" => some (.ofTable CharLists.leadingVowels)
  | "lower" | "lowercase" => some lowercase
  | "math" => some (.union (ofCategories [.sm]) (.ofTable CharLists.otherMath))
  | "nchar" | "noncharactercodepoint" => some (.ofTable CharLists.noncharacters)
  | "oalpha" | "otheralphabetic" => some (.codes alphabeticExtras)
  | "odi" | "otherdefaultignorablecodepoint" => some (.ofTable CharLists.otherIgnorables)
  | "ogrext" | "othergraphemeextend" => some (.codes extenderExtras)
  | "oidc" | "otheridcontinue" => some (.ofTable CharLists.otherIdParts)
  | "oids" | "otheridstart" => some (.ofTable CharLists.otherIdStarts)
  | "olower" | "otherlowercase" => some (.ofTable CharLists.otherLowercase)
  | "omath" | "othermath" => some (.ofTable CharLists.otherMath)
  | "oupper" | "otheruppercase" => some (.ofTable CharLists.otherUppercase)
  | "patsyn" | "patternsyntax" => some (.ofTable CharLists.patternSyntax)
  | "patws" | "patternwhitespace" => some (.ofTable CharLists.patternBlanks)
  | "pcm" | "prependedconcatenationmark" => some (.ofTable CharLists.prependedMarks)
  | "qmark" | "quotationmark" => some (.ofTable CharLists.quotationMarks)
  | "radical" => some (.ofTable CharLists.radicals)
  | "ri" | "regionalindicator" => some (.codes [(0x1F1E6, 0x1F1FF)])
  | "sterm" | "sentenceterminal" => some (.ofTable CharLists.sentenceEnds)
  | "sd" | "softdotted" => some (.ofTable CharLists.softDotted)
  | "term" | "terminalpunctuation" => some (.ofTable CharLists.textEnds)
  | "uideo" | "unifiedideograph" => some (.ofTable CharLists.unifiedIdeographs)
  | "upper" | "uppercase" => some uppercase
  | "vs" | "variationselector" => some (.ofTable CharLists.variationSelectors)
  | "wspace" | "whitespace" | "space" => some .blank
  | "xidc" | "xidcontinue" => some (.diff idContinue (.ofTable CharLists.unstableIdParts))
  | "xids" | "xidstart" => some (.diff idStart (.ofTable CharLists.unstableIdStarts))
  | _ => none

/-! ## Writing systems -/

/-- The writing system with a name. -/
def writingSystemNamed? (name : String) : Option WritingSystem :=
  writingSystems.find? (·.names.contains name)

/-- The characters of a writing system. -/
def scriptNamed? (name : String) : Option CharSet :=
  (writingSystemNamed? name).map (.ofTable ·.characters)

/-- The characters of a writing system with those that it shares with others. -/
def extendedScriptNamed? (name : String) : Option CharSet :=
  (writingSystemNamed? name).map fun system =>
    let listed := CharSet.ofTable (sharedCharacters.flatMap (·.characters))
    let shared := sharedCharacters.filter fun shared =>
      system.names.head?.any shared.codes.contains
    .union (.diff (.ofTable system.characters) listed)
      (.ofTable (shared.flatMap (·.characters)))

/-! ## Names -/

/-- The set of a general category, or of one of the three names beside them. -/
def categorySet? : String → Option CharSet
  | "any" => some CharSet.all
  | "assigned" => some (.compl (.category (· == .cn)))
  | "ascii" => some (.range '\x00' '\x7f')
  | name => (categoryNamed? name).map .category

/-- The set that a property name stands for on its own. -/
def propertyNamed? (name : List Char) : Option CharSet :=
  let name := normalizedName name
  traitNamed? name <|> categorySet? name <|> scriptNamed? name

/-- The set that a property with a value stands for. -/
def propertyValue? (property value : List Char) : Option CharSet :=
  match normalizedName property with
  | "gc" | "generalcategory" => categorySet? (normalizedName value)
  | "sc" | "script" => scriptNamed? (normalizedName value)
  | "scx" | "scriptextensions" => extendedScriptNamed? (normalizedName value)
  | _ => none

end RequestRouting.Regex
