import SlotQuery.Json.Printer
import SlotQuery.Json.Reader
import SlotQuery.Toml.Reader
import SlotQuery.Wire.Request
import SlotQuery.Wire.Schema

/-!
# Documents as text

A document is decoded while it is read: a fault of the text counts only if no
other one stands before it.
-/

namespace SlotQuery

/-- Decodes a text, after which nothing but blanks may follow. -/
def decodeText (decode : Medium → Json → Decoded α) (text : String) : Decoded α := do
  let document := Json.Document.ofText text
  let value ← decode .jsonText document.root
  if document.isComplete then return value else .error .malformed

def decodeToml (decode : Medium → Json → Decoded α) (text : String) : Decoded α :=
  match Toml.parse? text with
  | some root => decode .tomlText root
  | none => .error .malformed

def DecodeError.message : DecodeError → Option String
  | malformed => none
  | emptyPath => some "Path must contain at least one step"

def Request.toText (request : Request) : String :=
  request.encode.text

def Request.ofText (text : String) : Decoded Request :=
  decodeText Request.decode text

def Schema.ofJsonText (text : String) : Decoded Schema :=
  decodeText Schema.decode text

def Schema.ofTomlText (text : String) : Decoded Schema :=
  decodeToml Schema.decode text

def Layout.ofTomlText (text : String) : Decoded Layout :=
  decodeToml Layout.decode text

def Options.ofTomlText (text : String) : Decoded Options :=
  decodeToml Options.decode text

end SlotQuery
