import Workflow.Json.Reader
import Workflow.Json.Writer
import Workflow.Format

/-!
# JSON as a text format

The reader and the writer of scripts, put together as one format in which sequences can be written.
Only scripts depend on them: what is said of the text of a sequence is said of any format that
writes and reads arrays as JSON does.
-/

namespace Workflow.Json

def format : Format Defect where
  writeList write as := writeArray (as.map write)
  readList := readList
  print write a := String.ofList (write a)
  parse := parse
  isData d := d == .data

end Workflow.Json
