import Assay.FileTree
import Assay.Json.Reader
import Assay.Text.Utf8

/-!
# JSON files

A JSON file is UTF-8 text with line endings of any kind. It can be out of reach, no text, text that
is no JSON, or more than the machine can hold.
-/

namespace Assay.Json

/-- Why a file holds no value. -/
inductive FileError
  | unreadable (fault : SystemFault)
  | undecodable (error : Text.DecodeError)
  | malformed (found : Misreading)
  | exceeded (what : Excess)

/-- The value in a file of these bytes. -/
def ofBytes [Machine] (bytes : List UInt8) : Except FileError Json :=
  match Text.decodeUtf8 bytes with
  | .error e => .error (.undecodable e)
  | .ok cs =>
    match read (Text.unifyLineEnds cs) with
    | .error (.malformed found) => .error (.malformed found)
    | .error (.exceeded what) => .error (.exceeded what)
    | .ok data => .ok data

/-- The value in the file at a path. -/
def ofFile [Machine] (tree : FileTree) (path : Path) : Except FileError Json :=
  match tree.read path with
  | .error fault => .error (.unreadable fault)
  | .ok bytes => ofBytes bytes

end Assay.Json
