import LiveTable.Edit.Titles
import LiveTable.Format.Csv
import LiveTable.Format.PlainText
import LiveTable.Format.Xhtml
import LiveTable.Json.Form

/-! Documents: writing a table in any format and reading one back.  A document that cannot be read
    changes nothing. -/

namespace LiveTable

namespace Format

variable {α : Type} [Element α] [JsonForm α]

/-- The written form of a table. -/
def write (format : Format) (c : Content α) (inclusion : Inclusion) : String :=
  String.ofList <|
    match format with
    | json => (c.snapshot.restrict inclusion).toJson.pretty 0
    | xml => Xml.write c inclusion
    | xhtml => Xhtml.write c inclusion
    | csv => Csv.write c inclusion
    | plainText => PlainText.write c inclusion

/-- Reads the JSON form of a snapshot whose rows are equally long. -/
def readJson (text : List Char) : Except FormatFault (Snapshot α) :=
  match (Json.read? text).bind Snapshot.ofJson? with
  | none => .error .json
  | some s =>
    if s.rows.all fun row => row.length = (s.rows.head?.getD []).length then .ok s
    else .error (.shape .json .raggedRows)

/-- Reads the snapshot that a document describes, with all that is in it. -/
def parse (format : Format) (text : List Char) (inclusion : Inclusion) : Except FormatFault (Snapshot α) :=
  match format with
  | json => readJson text
  | xml => Xml.read text
  | xhtml => Xhtml.read text
  | csv => Csv.read text inclusion
  | plainText => PlainText.read text inclusion

/-- Reads the snapshot that a document describes, as far as it is to be included. -/
def read (format : Format) (text : String) (inclusion : Inclusion) : Except FormatFault (Snapshot α) :=
  (format.parse text.toList inclusion).map fun (s : Snapshot α) => s.restrict inclusion

/-- Writes a table to a place with room for so many bytes. -/
def writeBytes (format : Format) (c : Content α) (inclusion : Inclusion) (room : Nat) :
    Except FormatFault (List UInt8) :=
  let bytes := (format.write c inclusion).toUTF8.toList
  if room < bytes.length then .error .io else .ok bytes

/-- Reads the snapshot that the bytes of a document describe. -/
def readBytes (format : Format) (bytes : List UInt8) (inclusion : Inclusion) :
    Except FormatFault (Snapshot α) :=
  match String.fromUTF8? ⟨bytes.toArray⟩ with
  | some text => format.read text inclusion
  | none => .error .io

end Format

/-- What a new table holds after it was replaced by the one that a snapshot describes. -/
def Snapshot.unpack {α : Type} (s : Snapshot α) : Content α :=
  ((Edit.unobserved {}).replace (Content.ofSnapshot s)).content

end LiveTable
