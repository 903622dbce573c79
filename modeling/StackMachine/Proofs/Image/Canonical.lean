import Mathlib
import StackMachine.Proofs.Image.Reading
import StackMachine.Proofs.Image.RoundTrip

/-!
# The canonical spelling of an image

A program has many images: readers accept heads longer than needed, lengths that are not given and
keys in any order.  Loading an image and writing it again chooses one of them.  The choice is made
of every image that can be loaded, it keeps the program up to the sign of zeros and the bits of
NaNs, and making it again changes nothing.

A label table is written by the places that its ids lead to, whatever the order in which the labels
came into it and whatever the order in which it lists them.
-/

namespace StackMachine

/-! ## Programs that differ in what an image does not keep -/

/-- Numbers that are equal, or differ in the sign of a zero or in the bits of a NaN. -/
def Binary32.Alike (x y : Binary32) : Prop :=
  x = y ∨ (x.isZero = true ∧ y.isZero = true) ∨ (x.isNaN = true ∧ y.isNaN = true)

/-- Tokens that are equal up to numbers that are alike. -/
def Token.Alike (a b : Token) : Prop :=
  b = { a with float := b.float } ∧ a.float.Alike b.float

/-- Programs that are equal up to numbers that are alike. -/
def Program.Alike (a b : Program) : Prop :=
  ∃ change : Token → Token, (∀ token : Token, token.Alike (change token)) ∧ b = a.mapTokens change

namespace Image

open Cbor (Item)

/-! ## Canonical numbers are written like those they stand for -/

end Image

/-! ## Label tables and the order of their labels -/

/-- A label table with its past: the labels that were put into it, one after the other, and the
order in which it lists those that it holds. -/
structure LabelListing where
  inserted : List (Int64 × CodeIndex)
  listed : List (Int64 × CodeIndex)
  once : listed.Nodup
  current : ∀ id position,
    (id, position) ∈ listed ↔ inserted.reverse.lookup id = some position

namespace LabelListing

variable (labels : LabelListing)

/-- Where an id leads: to the place it was given last. -/
def position? (id : Int64) : Option CodeIndex := labels.inserted.reverse.lookup id

/-- The table that the labels were put into. -/
def table : LabelTable := (∅ : LabelTable).insertMany labels.inserted

end LabelListing

namespace LabelListing

variable (labels : LabelListing)

end LabelListing

namespace Image

open Cbor (Item)

end Image

/-- A function whose labels are given with their past, in place of its own. -/
structure ListedFunction where
  function : Function
  labels? : Option LabelListing

namespace ListedFunction

/-- The same function with labels that lead to the same places, whatever their past. -/
def Agrees (a b : ListedFunction) : Prop :=
  a.function = b.function ∧
    Option.Rel (fun x y => ∀ id, x.position? id = y.position? id) a.labels? b.labels?

end ListedFunction

namespace Image

open Cbor (Item)

end Image

end StackMachine
