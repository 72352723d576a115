import TreeCatalog.Path
import TreeCatalog.Text.Utf8
/-! # Paths as the system takes them

The system takes a path as bytes. Almost every path here is text, but one taken from a request
is whatever bytes the request spelled, and those need not be UTF-8. A path is therefore text, or
raw bytes that are kept as they came. Raw bytes are shown with U+FFFD for each byte that is not
part of a character.

Lexical operations on paths look only at `/` and `.`, so on raw bytes they run on the bytes read
one character per byte (U+0000 to U+00FF), which carries every byte through unchanged. -/

namespace TreeCatalog.Disk

/-- A path handed to the system: text, or bytes as a request spelled them. -/
inductive OsPath where
  | text (s : String)
  | raw (bytes : List UInt8)
deriving Repr, DecidableEq

instance : Coe String OsPath := ⟨OsPath.text⟩

/-- The path of some bytes: text when they are UTF-8, else the bytes themselves. -/
def OsPath.ofBytes (bs : List UInt8) : OsPath :=
  if Text.Utf8.valid bs then .text (Text.Utf8.decode bs) else .raw bs

/-- How a path is shown: its text, or its bytes read with U+FFFD for each stray byte. -/
def OsPath.shown : OsPath → String
  | .text s => s
  | .raw bs => Text.Utf8.decode bs

/-- Bytes read one character per byte. -/
def byteText (bs : List UInt8) : String := String.ofList (bs.map fun b => Char.ofNat b.toNat)

/-- The bytes of text made of characters below U+0100, one byte per character. -/
def textBytes (s : String) : List UInt8 := s.toList.map fun c => c.toNat.toUInt8

/-- A lexical operation on text applied to a path: raw bytes go through it one character per
byte. -/
def OsPath.lexical (f : String → String) : OsPath → OsPath
  | .text s => .text (f s)
  | .raw bs => .raw (textBytes (f (byteText bs)))

/-- The absolute, cleaned form of path bytes against the working directory `cwd`. -/
def absBytes (cwd : String) (bs : List UInt8) : List UInt8 :=
  textBytes (Path.abs (byteText (Text.Utf8.encode cwd)) (byteText bs))

/-- The components of raw bytes, split at `/`, empty ones left out. -/
def byteParts (bs : List UInt8) : List (List UInt8) :=
  (Path.parts (byteText bs)).map textBytes

theorem shown_text (s : String) : (OsPath.text s).shown = s := rfl

theorem lexical_text (f : String → String) (s : String) :
    (OsPath.text s).lexical f = .text (f s) := rfl

end TreeCatalog.Disk
