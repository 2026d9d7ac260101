import InlineAsm.CType
import InlineAsm.Value

/-!
Why a value does not fit a type.
-/

namespace InlineAsm

inductive Mismatch where
  | notInteger (type : CType) (got : Value.Kind)
  | notNumber (type : CType) (got : Value.Kind)
  | notText (got : Value.Kind)
  /-- A character whose code does not fit one byte. -/
  | wideCharacter (c : Char)
  | notOneCharacter (length : Nat)
  | notList (element : CType) (got : Value)
  | emptyList (element : CType)
  | wrongLength (element : CType) (got : Value) (length expected : Nat)
  | notStorable (type : CType) (got : Value.Kind)

open Text.Numeral (ofNat) in
def Mismatch.message : Mismatch → String
  | .notInteger t got => "Value is not of type '" ++ t.name ++ "' (got " ++ got.name ++ ", expected integer)"
  | .notNumber t got => "Value is not of type '" ++ t.name ++ "' (got " ++ got.name ++ ", expected integer or float)"
  | .notText got => "Value is not of type 'char' (got " ++ got.name ++ ", expected string)"
  | .wideCharacter c => "Can not store " ++ Text.quoted '\'' [c] ++ " in a single byte 'char'"
  | .notOneCharacter n => "Can not convert string with length " ++ ofNat n ++ " to 'char' (expected length 1)"
  | .notList t v => "Can not convert " ++ v.render ++ " to '" ++ t.name ++ "' array"
  | .emptyList t => "Can not convert empty list to '" ++ t.name ++ "' array"
  | .wrongLength t v n m =>
    "Can not convert " ++ v.render ++ " to '" ++ t.name ++ "' array (got length " ++ ofNat n ++ ", expected " ++
      ofNat m ++ ")"
  | .notStorable t got => "Can not store " ++ got.name ++ " value in '" ++ t.name ++ "'"

end InlineAsm
