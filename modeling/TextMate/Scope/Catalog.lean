import TextMate.Scope

/-!
# The catalog of common scopes

Scopes that most grammars use, named after the conventions of the format. The name of a constant
is read off its text, so the catalog needs no second column.
-/

set_option autoImplicit false

namespace TextMate.Scope

def commentLine : Scope := ⟨"comment.line"⟩
def commentLineDoubleSlash : Scope := ⟨"comment.line.double-slash"⟩
def commentLineNumberSign : Scope := ⟨"comment.line.number-sign"⟩
def commentBlock : Scope := ⟨"comment.block"⟩
def commentBlockDocumentation : Scope := ⟨"comment.block.documentation"⟩
def constantNumeric : Scope := ⟨"constant.numeric"⟩
def constantCharacter : Scope := ⟨"constant.character"⟩
def constantCharacterEscape : Scope := ⟨"constant.character.escape"⟩
def constantLanguage : Scope := ⟨"constant.language"⟩
def entityNameFunction : Scope := ⟨"entity.name.function"⟩
def entityNameType : Scope := ⟨"entity.name.type"⟩
def entityNameNamespace : Scope := ⟨"entity.name.namespace"⟩
def entityNameTag : Scope := ⟨"entity.name.tag"⟩
def entityOtherAttributeName : Scope := ⟨"entity.other.attribute-name"⟩
def invalidIllegal : Scope := ⟨"invalid.illegal"⟩
def keywordControl : Scope := ⟨"keyword.control"⟩
def keywordOperator : Scope := ⟨"keyword.operator"⟩
def keywordOther : Scope := ⟨"keyword.other"⟩
def markupBold : Scope := ⟨"markup.bold"⟩
def markupHeading : Scope := ⟨"markup.heading"⟩
def markupItalic : Scope := ⟨"markup.italic"⟩
def punctuationDefinitionStringBegin : Scope := ⟨"punctuation.definition.string.begin"⟩
def punctuationDefinitionStringEnd : Scope := ⟨"punctuation.definition.string.end"⟩
def punctuationDefinitionComment : Scope := ⟨"punctuation.definition.comment"⟩
def punctuationSeparator : Scope := ⟨"punctuation.separator"⟩
def punctuationTerminator : Scope := ⟨"punctuation.terminator"⟩
def storageType : Scope := ⟨"storage.type"⟩
def storageModifier : Scope := ⟨"storage.modifier"⟩
def stringQuotedDouble : Scope := ⟨"string.quoted.double"⟩
def stringQuotedSingle : Scope := ⟨"string.quoted.single"⟩
def stringRegexp : Scope := ⟨"string.regexp"⟩
def supportFunction : Scope := ⟨"support.function"⟩
def supportType : Scope := ⟨"support.type"⟩
def variableParameter : Scope := ⟨"variable.parameter"⟩
def variableOther : Scope := ⟨"variable.other"⟩
def variableLanguage : Scope := ⟨"variable.language"⟩

/-- All scopes above, in that order. -/
def catalog : List Scope :=
  [commentLine, commentLineDoubleSlash, commentLineNumberSign, commentBlock,
   commentBlockDocumentation, constantNumeric, constantCharacter, constantCharacterEscape,
   constantLanguage, entityNameFunction, entityNameType, entityNameNamespace, entityNameTag,
   entityOtherAttributeName, invalidIllegal, keywordControl, keywordOperator, keywordOther,
   markupBold, markupHeading, markupItalic, punctuationDefinitionStringBegin,
   punctuationDefinitionStringEnd, punctuationDefinitionComment, punctuationSeparator,
   punctuationTerminator, storageType, storageModifier, stringQuotedDouble, stringQuotedSingle,
   stringRegexp, supportFunction, supportType, variableParameter, variableOther, variableLanguage]

/-- The text in capitals, with an underscore for every dot and hyphen. -/
def constantName (s : Scope) : String :=
  String.ofList (s.text.toList.map fun c => if c = '.' ∨ c = '-' then '_' else c.toUpper)

/-- The scope of the catalog that has the constant name `name`. -/
def ofConstantName? (name : String) : Option Scope :=
  catalog.find? fun s => s.constantName == name

end TextMate.Scope
