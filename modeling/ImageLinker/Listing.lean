import ImageLinker.Fault
import ImageLinker.Image
import ImageLinker.Text.Table

/-!
# Listings

A listing has a row for each instruction of an image: where it stands, what its bytes are, how it
reads in assembly, and which functions and blocks begin with it.
-/

namespace ImageLinker

/-- What a listing says about one instruction. -/
structure ListingRow where
  address : Nat
  bytes : List UInt8
  instruction : Instruction
  labels : List String
deriving DecidableEq, Repr

namespace ListingRow

def cells (r : ListingRow) : List String :=
  [Hex.address r.address, Hex.separated " " r.bytes, r.instruction.text,
    ", ".intercalate r.labels]

end ListingRow

namespace Image

/-- The row of an instruction. Its bytes are as many as the instruction takes when it is encoded. -/
def listingRow (image : Image) (address : Nat) (i : Instruction) : ListingRow where
  address := address
  bytes := (image.code.extract address (address + i.encodedSize)).toList
  instruction := i
  labels := image.labelsAt address

/-- The rows of the listing, unless the image holds bytes that are no instructions. -/
def listingRows (image : Image) : Except BuildError (List ListingRow) := do
  let instructions ← image.instructions
  return instructions.toList.map fun (address, i) => image.listingRow address i

/-- The listing as a table. -/
def listing (rows : List ListingRow) : Table where
  columns :=
    [⟨"Address", .right⟩, ⟨"Bytes", .left⟩, ⟨"Instruction", .left⟩, ⟨"Labels", .left⟩]
  rows := rows.map ListingRow.cells

/-- The text of a listing. There is none if a label has no width. -/
def listingText (rows : List ListingRow) : Except Fault String :=
  match (listing rows).overhidden? with
  | some line => .error (.overhidden line)
  | none => .ok (listing rows).render

/-- The image as text: its listing, or why it has none. -/
def text (image : Image) : Except Fault String :=
  match image.listingRows with
  | .ok rows => listingText rows
  | .error e => .ok e.message

end Image

end ImageLinker
