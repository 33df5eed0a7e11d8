/-!
# What can be wrong with the text of a signature

Every error but the one for the empty text names a place, as the number of bytes in front of it in the
UTF-8 form of the text.
-/

namespace ClassMetadata

/-- What would have been legal where an unexpected character stands. -/
inductive Expectation
  | typeSignature
  | semicolonAfterVariable
  | dotOrSemicolon
  deriving DecidableEq, Repr

def Expectation.text : Expectation → String
  | typeSignature => "type signature"
  | semicolonAfterVariable => "';' after type variable"
  | dotOrSemicolon => "'.' or ';' in class type"

inductive SignatureError
  | empty
  /-- the text stops inside a signature -/
  | unexpectedEnd (offset : Nat)
  | unexpectedChar (found : Char) (offset : Nat) (expected : Expectation)
  | emptyIdentifier (offset : Nat)
  /-- `<>`; the offset is that of the `<` -/
  | emptyTypeArguments (offset : Nat)
  /-- the offset is that of the first bracket too many -/
  | tooManyDimensions (offset : Nat)
  | nestingTooDeep (offset : Nat)
  /-- a whole signature with more text behind it -/
  | trailingInput (offset : Nat)
  deriving DecidableEq, Repr

def SignatureError.message : SignatureError → String
  | empty => "Empty type signature"
  | unexpectedEnd o => "Unexpected end of signature at offset " ++ toString o
  | unexpectedChar c o expected =>
    "Unexpected character '" ++ c.toString ++ "' at offset " ++ toString o ++ ", expected " ++
      expected.text
  | emptyIdentifier o => "Empty identifier at offset " ++ toString o
  | emptyTypeArguments o => "Empty type argument list at offset " ++ toString o
  | tooManyDimensions o => "Array type exceeds 255 dimensions at offset " ++ toString o
  | nestingTooDeep o => "Type arguments nested deeper than 64 levels at offset " ++ toString o
  | trailingInput o => "Trailing input after signature at offset " ++ toString o

end ClassMetadata
