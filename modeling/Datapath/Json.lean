/-
Documents in the JSON format, read and written.
-/
import Datapath.Json.Reader
import Datapath.Json.Writer
