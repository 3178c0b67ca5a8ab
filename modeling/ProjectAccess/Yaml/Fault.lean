/-
Why a text is not the YAML document that was asked for.

A fault lies in the characters, in the tokens, in the structure, or in what the
document holds where something else was expected.
-/

namespace ProjectAccess.Yaml

/-- What is wrong with a text or with the document in it. -/
inductive Fault where
  -- characters and tokens
  | controlCharacter
  | unexpectedCharacter
  | malformedDirective
  | malformedTag
  | malformedAnchor
  | malformedEscape
  | malformedBlockHeader
  | unclosedQuote
  | tabInIndentation
  | indicatorInScalar
  | misplacedEntry
  | misplacedKey
  | misplacedValue
  | keyWithoutValue
  -- structure
  | unexpectedToken
  | repeatedDirective
  | unsupportedVersion
  | undefinedTagHandle
  | undefinedAlias
  | severalDocuments
  -- content
  | typeMismatch
  | missingField (name : String)
  | repeatedField (name : String)
  | tooManyAliases
  deriving DecidableEq, Repr

/-- What is wrong, in words. -/
def Fault.message : Fault → String
  | .controlCharacter => "a control character is not allowed"
  | .unexpectedCharacter => "no token starts with this character"
  | .malformedDirective => "a directive is malformed"
  | .malformedTag => "a tag is malformed"
  | .malformedAnchor => "the name of an anchor or alias is malformed"
  | .malformedEscape => "an escape is malformed"
  | .malformedBlockHeader => "the header of a block scalar is malformed"
  | .unclosedQuote => "a quoted scalar is not closed"
  | .tabInIndentation => "a tab stands in the indentation"
  | .indicatorInScalar => "a colon stands before a sign of a flow collection"
  | .misplacedEntry => "a sequence may not start here"
  | .misplacedKey => "a key may not start here"
  | .misplacedValue => "a value may not start here"
  | .keyWithoutValue => "a key has no colon after it"
  | .unexpectedToken => "the structure is broken"
  | .repeatedDirective => "a directive is repeated"
  | .unsupportedVersion => "the version is not supported"
  | .undefinedTagHandle => "the handle of a tag is not defined"
  | .undefinedAlias => "an alias stands for no node"
  | .severalDocuments => "there is more than one document"
  | .typeMismatch => "a value has the wrong type"
  | .missingField name => "the field " ++ name ++ " is missing"
  | .repeatedField name => "the field " ++ name ++ " is repeated"
  | .tooManyAliases => "aliases are followed too often"

end ProjectAccess.Yaml
