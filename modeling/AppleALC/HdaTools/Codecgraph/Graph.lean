import AppleALC.HdaTools.Codecgraph.CodecInfo

/-!
# The graph of codecgraph.py

The statements that the script writes for graphviz.  A node is drawn with a triangle for each of its
amplifiers; a pin is drawn in two parts, one for its input and one for its output.

The color of an amplifier is computed in floating point; it is a parameter.  The comments with the
fields of a node are left out.

* `Statement` / `Statement.text` — a statement, and its line in the output;
* `inampNextId`, `outampNextId`, `inId`, `outId` — the vertices that lines begin and end at;
* `Node.dumpGraph` / `CodecInfo.dumpGraph` — the statements of a node and of the codec;
* `main` — the output of the script.
-/

namespace AppleALC.HdaTools.Codecgraph

open PyText

inductive Statement
  | subgraph (name : Str)
  | pencolor
  | close
  | node (id : Str) (attrs : List (Str × Str))
  | amp (id label color : Str)
  | ampEdge (frm dst color : Str)
  | connection (frm dst : Str) (active : Bool)
  deriving DecidableEq, Repr

namespace Statement

def text : Statement → Str
  | subgraph name => "subgraph \"".toList ++ name ++ "\" \x7b\n".toList
  | pencolor => "  pencolor=\"gray80\"\n".toList
  | close => "\x7d\n".toList
  | node id attrs =>
      [' '] ++ id ++ [' ']
        ++ (if attrs = [] then [] else
          ['['] ++ ", ".toList.intercalate (attrs.map fun (f, v) => f ++ ['='] ++ v) ++ [']'])
        ++ ['\n']
  | amp id label color =>
      "  ".toList ++ id ++ " [label = \"".toList ++ label
        ++ "\", shape=triangle orientation=-90 color=\"".toList ++ color ++ "\"];\n".toList
  | ampEdge frm dst color =>
      "  ".toList ++ frm ++ " -> ".toList ++ dst
        ++ " [arrowsize=0.5, arrowtail=dot, weight=2.0 color=\"".toList ++ color ++ "\"];\n".toList
  | connection frm dst active =>
      frm ++ " -> ".toList ++ dst
        ++ (if active then " [color=gray20];\n".toList else " [color=gray style=dashed];\n".toList)

/-- The vertex that a statement declares. -/
def declared? : Statement → Option Str
  | node id _ => some id
  | amp id _ _ => some id
  | _ => none

/-- The edge that a statement draws, and if its line is solid. -/
def edge? : Statement → Option (Str × Str × Bool)
  | ampEdge frm dst _ => some (frm, dst, true)
  | connection frm dst active => some (frm, dst, active)
  | _ => none

end Statement

def allNodes : Bool := false

namespace Node

variable (n : Node)

/-! ### The vertices of a node -/

def idstring : Str := "nid-".toList ++ hex02 n.nid

def vertexId (part : Str) : Str := ['"'] ++ n.idstring ++ part ++ ['"']

def outampId : Str := n.vertexId "-ampout".toList

def inampId (orignid : Option ℤ) : Str :=
  if n.manyAmpins then n.vertexId ("-ampin-".toList ++ orignid.elim "None".toList decimal)
  else n.vertexId "-ampin".toList

def mainId : Str := n.vertexId []

def mainInputId : Str := n.vertexId "-in".toList

def mainOutputId : Str := n.vertexId "-out".toList

/-- `inamp_next_id`: where the amplifiers of the inputs lead to. -/
def inampNextId : Str := if n.isDivided then n.mainOutputId else n.mainId

/-- `outamp_next_id`: where the amplifier of the output comes from. -/
def outampNextId : Str := if n.isDivided then n.mainInputId else n.mainId

/-- `out_id`: where the connections from the node start. -/
def outId : Str :=
  if n.isDivided then n.mainOutputId
  else if n.hasOutamp then n.outampId
  else n.outampNextId

/-- `in_id`: where the connection from another node ends. -/
def inId (orignid : ℤ) : Str :=
  if n.isDivided then n.mainInputId
  else if n.hasInamp then n.inampId (some orignid)
  else n.inampNextId

/-! ### The looks of a node -/

def wcapsLabel : Str :=
  [' '].intercalate (n.wcaps.filter fun cap =>
    !(["Amp-In".toList, "Amp-Out".toList].contains cap))

def label : Str :=
  if n.unknown then "\"Unknown Node 0x".toList ++ hex02 n.nid ++ ['"']
  else
    ['"'] ++ "0x".toList ++ hex02 n.nid
      ++ ((n.fields "Pin Default".toList).elim [] fun (pdef, _) => "\\n".toList ++ pdef)
      ++ "\\n".toList ++ n.wcapsLabel
      ++ ((n.fields "Pincap".toList).elim [] fun (pincap, _) => "\\n".toList ++ pincap) ++ ['"']

def additionalAttrs : List (Str × Str) :=
  (if n.type = "Audio Input".toList then [("color", "red"), ("shape", "ellipse")]
    else if n.type = "Audio Output".toList then [("color", "blue"), ("shape", "ellipse")]
    else if n.type = "Pin Complex".toList then [("color", "green"), ("shape", "box")]
    else if n.type = "Audio Selector".toList then [("shape", "parallelogram"), ("orientation", "0")]
    else if n.type = "Audio Mixer".toList then [("shape", "hexagon")]
    else if n.type = "Unknown Node".toList then [("color", "red"), ("shape", "Mdiamond")]
    else [("shape", "box"), ("color", "black")]).map fun (f, v) => (f.toList, v.toList)

def getAttrs : List (Str × Str) := ("label".toList, n.label) :: n.additionalAttrs

/-! ### The statements of a node -/

def showInput : Bool := allNodes || decide (n.inputs ≠ [])

def showOutput : Bool := allNodes || decide (n.outputs ≠ [])

def dumpMainInput : List Statement :=
  if n.showInput then [.node n.mainInputId n.getAttrs] else []

def dumpMainOutput : List Statement :=
  if n.showOutput then [.node n.mainOutputId n.getAttrs] else []

def dumpMain : List Statement :=
  if n.showInput || n.showOutput then [.node n.mainId n.getAttrs] else []

def showAmp (id frm dst label color : Str) : List Statement :=
  [.amp id label color, .ampEdge frm dst color]

variable (color : Amplifier → Str)

def dumpOutAmps : List Statement :=
  if h : n.showOutput ∧ n.hasOutamp then
    showAmp n.outampId n.outampNextId n.outampId [] (color (n.outamp h.2))
  else []

/-- `amporigins`: the label and the input of every amplifier. -/
def amporigins : List (Str × Option ℤ) :=
  if n.manyAmpins then
    n.inputs.zipIdx.map fun (nid, i) =>
      (decimal i ++ " (0x".toList ++ hex02 nid ++ [')'], some nid)
  else [([], none)]

def dumpInAmps : List Statement :=
  if n.showInput ∧ n.hasInamp then
    (n.amporigins.zip n.inamps.toList).flatMap fun ((label, origin), amp) =>
      showAmp (n.inampId origin) (n.inampId origin) n.inampNextId label (color amp)
  else []

def isConnActive (c : ℤ) : Bool := n.type = "Audio Mixer".toList ∨ n.activeConn = some c

def dumpGraph (ci : CodecInfo) : List Statement :=
  let name := "cluster-".toList ++ n.idstring
  let origins := n.inputs.filterMap fun c => (ci.getNode c).map Prod.snd
  (if n.isDivided then
    [.subgraph (name ++ "-in".toList), .pencolor] ++ n.dumpMainInput ++ n.dumpOutAmps color
      ++ [.close, .subgraph (name ++ "-out".toList), .pencolor] ++ n.dumpMainOutput
      ++ n.dumpInAmps color ++ [.close]
  else
    [.subgraph name, .pencolor] ++ n.dumpMain ++ n.dumpOutAmps color ++ n.dumpInAmps color
      ++ [.close])
    ++ origins.map fun origin =>
      .connection origin.outId (n.inId origin.nid) (n.isConnActive origin.nid)

/-- Where amplifiers are drawn, every one has its input. -/
theorem amporigins_length (h : n.hasInamp = true) : n.amporigins.length = n.inamps.toList.length := by
  rw [List.Vector.toList_length, NodeHead.numInamps, if_neg (by simp [h]), amporigins]
  split
  · rw [List.length_map, List.length_zipIdx]
  · rfl

end Node

def CodecInfo.dumpGraph (o : ValuesOrder) (color : Amplifier → Str) (ci : CodecInfo) :
    List Statement :=
  (ci.values o).flatMap fun n => n.dumpGraph color ci

/-- `main`: what the script prints for the lines of a dump. -/
def main (o : ValuesOrder) (color : Amplifier → Str) (lines : List Str) : Option Str :=
  (CodecInfo.init o lines).map fun ci =>
    "digraph \x7b\nrankdir=LR\n\t\tranksep=3.0\n\t\t".toList
      ++ (ci.dumpGraph o color).flatMap Statement.text ++ "\x7d\n".toList

end AppleALC.HdaTools.Codecgraph
