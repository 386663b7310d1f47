import PracticePlan.Notation.Format
import PracticePlan.Notation.Item
import PracticePlan.Notation.Line

namespace PracticePlan
namespace Notation

/-!
# Reading and writing in either notation

A codec is a notation that is ready for use.  Lines need a default category,
which has to be registered, and JSON needs nothing.  Converting reads with one
codec and writes with another, and the second is not looked for before the
first has read its text.
-/

variable {σ φ : Type} [IntervalSettings σ]

/-- A notation with what it needs. -/
inductive Codec (σ φ : Type) where
  | lines (standard : Category σ φ)
  | items

namespace Codec

/-- The codec of a notation, with the name of the default category. -/
def ofFormat (registry : Registry σ φ) (standard : String) :
    Format → Except FormatError (Codec σ φ)
  | .text => match registry.category? standard with
      | some category => .ok (lines category)
      | none => .error (.unknownCategory standard)
  | .json => .ok items

def format : Codec σ φ → Format
  | lines _ => .text
  | items => .json

def readPlan (registry : Registry σ φ) (text : String) :
    Codec σ φ → Except FormatError (Report σ)
  | lines standard => .ok (Line.readPlan registry standard text)
  | items => Item.readPlan registry text

def writePlan (registry : Registry σ φ) (plan : Plan σ) :
    Codec σ φ → Except FormatError String
  | lines standard => Line.writePlan registry standard plan
  | items => .ok (Item.writePlan plan)

end Codec

/-- Read a text in one notation and write it in another. -/
def convert (registry : Registry σ φ) (standard : String) (source target : Format)
    (text : String) : Except FormatError (String × List Warning) :=
  (Codec.ofFormat registry standard source).bind fun reader =>
    (reader.readPlan registry text).bind fun report =>
      (Codec.ofFormat registry standard target).bind fun writer =>
        (writer.writePlan registry report.plan).map fun written => (written, report.warnings)

end Notation
end PracticePlan
