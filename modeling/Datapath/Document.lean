/-
Everything that can be written into documents and read back: the values and
codecs, and the codecs of all parts of this library.
-/
import Datapath.Document.Addition
import Datapath.Document.Component
import Datapath.Document.Device
import Datapath.Document.Diagnostic
import Datapath.Document.Product
import Datapath.Document.Target
import Datapath.Document.Tiling
