import Mathlib.Init

/-!
# Exceptions

What the program raises: the class of an exception, which decides the handler
that catches it, and the text it carries. A call that may raise returns an
`Except Exn`.
-/

namespace SecNet

/-- An exception, by its class, with its text. The ones without a text are those
    of the decoders and of the cryptography. -/
inductive Exn
  | valueError (text : String)
  | keyError (text : String)
  | indexError (text : String)
  | typeError (text : String)
  | attributeError (text : String)
  | runtimeError (text : String)
  | overflowError (text : String)
  | connectionError (text : String)
  | osError (text : String)
  | permissionError (text : String)
  | structError (text : String)
  | unicodeDecodeError
  | unicodeEncodeError
  | jsonDecodeError
  | binasciiError
  | invalidTag
  | invalidSignature
  deriving DecidableEq, Repr

/-- A computation returns when its two parts do. -/
theorem bind_eq_ok {ε α β : Type} {x : Except ε α} {f : α → Except ε β} {r : β} :
    (x >>= f) = .ok r ↔ ∃ a, x = .ok a ∧ f a = .ok r := by
  cases x with
  | ok a => exact ⟨fun h => ⟨a, rfl, h⟩, by rintro ⟨_, ⟨rfl⟩, h⟩; exact h⟩
  | error e => exact ⟨nofun, by rintro ⟨_, ⟨⟩, _⟩⟩

end SecNet
