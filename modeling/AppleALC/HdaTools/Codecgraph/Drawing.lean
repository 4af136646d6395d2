import AppleALC.HdaTools.Codecgraph.Graph

/-!
# The drawing of a codec

The statements of codecgraph.py as a graph.  A vertex is a place at a node; its name is different from
that of every other vertex, so what the statements declare and draw can be said of the vertices.

* `Vertex` / `Vertex.text_injective` — the places at nodes, whose names tell them apart;
* `Drawn` / `mem_edges` — the lines of the drawing are those that the statements draw;
* `Declared` / `mem_declared` — and the same for the vertices.
-/

namespace AppleALC.HdaTools.Codecgraph

open PyText

/-! ### Vertices -/

inductive Place
  | main
  | input
  | output
  | ampout
  | ampin (origin : Option ℤ)
  deriving DecidableEq, Repr

def Place.part : Place → Str
  | main => []
  | input => "-in".toList
  | output => "-out".toList
  | ampout => "-ampout".toList
  | ampin none => "-ampin".toList
  | ampin (some c) => "-ampin-".toList ++ decimal c

structure Vertex where
  nid : ℤ
  place : Place
  deriving DecidableEq, Repr

def Vertex.text (x : Vertex) : Str :=
  ['"'] ++ ("nid-".toList ++ hex02 x.nid) ++ x.place.part ++ ['"']

/-- The kind of a place, as the first seven characters show it. -/
def Place.kind : Place → Fin 6
  | main => 0
  | input => 1
  | output => 2
  | ampout => 3
  | ampin none => 4
  | ampin (some _) => 5

theorem Place.take_part (p : Place) : p.part.take 7 =
    (["", "-in", "-out", "-ampout", "-ampin", "-ampin-"].map String.toList).getD p.kind [] := by
  rcases p with _ | _ | _ | _ | _ | c
  · rfl
  · rfl
  · rfl
  · rfl
  · rfl
  · rfl

theorem Place.part_injective {p q : Place} (h : p.part = q.part) : p = q := by
  have hinj : ∀ i j : Fin 6,
      (["", "-in", "-out", "-ampout", "-ampin", "-ampin-"].map String.toList).getD i [] =
        (["", "-in", "-out", "-ampout", "-ampin", "-ampin-"].map String.toList).getD j [] → i = j := by
    decide
  have hkind : p.kind = q.kind := by
    refine hinj _ _ ?_
    rw [← take_part, ← take_part, h]
  rcases p with _ | _ | _ | _ | _ | c <;> rcases q with _ | _ | _ | _ | _ | d <;>
    first
    | rfl
    | exact congrArg (fun c => ampin (some c)) (decimal_injective (List.append_cancel_left h))
    | exact absurd hkind (by simp [kind])

/-- What follows the number in a name is no digit. -/
theorem Place.part_head (p : Place) :
    ∃ c rest, p.part ++ ['"'] = c :: rest ∧ HexWord.isLowerHex c = false := by
  rcases p with _ | _ | _ | _ | _ | c
  · exact ⟨_, _, rfl, by decide⟩
  · exact ⟨_, _, rfl, by decide⟩
  · exact ⟨_, _, rfl, by decide⟩
  · exact ⟨_, _, rfl, by decide⟩
  · exact ⟨_, _, rfl, by decide⟩
  · exact ⟨_, _, rfl, by decide⟩

/-- **Different vertices have different names.** -/
theorem Vertex.text_injective {x y : Vertex} (hx : 0 ≤ x.nid) (hy : 0 ≤ y.nid)
    (h : x.text = y.text) : x = y := by
  obtain ⟨nid, p⟩ := x
  obtain ⟨nid', q⟩ := y
  obtain ⟨a, rfl⟩ := Int.eq_ofNat_of_zero_le hx
  obtain ⟨b, rfl⟩ := Int.eq_ofNat_of_zero_le hy
  obtain ⟨c, rest, hp, hc⟩ := p.part_head
  obtain ⟨d, rest', hq, hd⟩ := q.part_head
  simp only [text, List.append_assoc] at h
  rw [hp, hq] at h
  replace h := List.append_cancel_left (List.append_cancel_left h)
  -- the number ends where the place begins
  have hspan := takeWhile_append_cons (hex02_natCast a).1 hc rest
  rw [h, (takeWhile_append_cons (hex02_natCast b).1 hd rest').1,
    (takeWhile_append_cons (hex02_natCast b).1 hd rest').2] at hspan
  have hab : (a : ℤ) = b := hex02_injective hx hy hspan.1.symm
  obtain rfl := Int.ofNat.inj hab
  rw [← hp, ← hq] at hspan
  obtain rfl := Place.part_injective (List.append_cancel_right hspan.2)
  rfl

/-! ### The places of a node -/

namespace Node

variable (n : Node)

/-- Where lines out of the node begin. -/
def sourcePlace : Place := if n.isDivided then .output else .main

/-- Where lines into the node end. -/
def sinkPlace : Place := if n.isDivided then .input else .main

/-- Where the connections from the node begin. -/
def outPlace : Place :=
  if n.isDivided then .output else if n.hasOutamp then .ampout else .main

/-- Where the connection from another node ends. -/
def inPlace (orignid : ℤ) : Place :=
  if n.isDivided then .input
  else if n.hasInamp then .ampin (if n.manyAmpins then some orignid else none)
  else .main

/-- The inputs that have an amplifier of their own. -/
def ampOrigins : List (Option ℤ) := if n.manyAmpins then n.inputs.map some else [none]

def vertex (p : Place) : Vertex := ⟨n.nid, p⟩

theorem inampNextId_eq : n.inampNextId = (n.vertex n.sourcePlace).text := by
  unfold inampNextId sourcePlace
  split <;> rfl

theorem outampNextId_eq : n.outampNextId = (n.vertex n.sinkPlace).text := by
  unfold outampNextId sinkPlace
  split <;> rfl

theorem outId_eq : n.outId = (n.vertex n.outPlace).text := by
  unfold outId outPlace
  split
  · rfl
  · next hdivided =>
    split
    · rfl
    · rw [outampNextId, if_neg hdivided]
      rfl

theorem inampId_eq {origin : Option ℤ} (h : origin ∈ n.ampOrigins) :
    n.inampId origin = (n.vertex (.ampin origin)).text := by
  unfold ampOrigins at h
  unfold inampId
  split at h
  · next hmany =>
    obtain ⟨c, -, rfl⟩ := List.mem_map.mp h
    rw [if_pos hmany]
    rfl
  · next hmany =>
    obtain rfl := List.mem_singleton.mp h
    rw [if_neg hmany]
    rfl

theorem inId_eq (orignid : ℤ) : n.inId orignid = (n.vertex (n.inPlace orignid)).text := by
  unfold inId inPlace
  split
  · rfl
  · next hdivided =>
    split
    · unfold inampId
      split <;> rfl
    · rw [inampNextId, if_neg hdivided]
      rfl

/-! ### The statements of a node -/

variable (color : Amplifier → Str) (ci : CodecInfo)

theorem map_amporigins : n.amporigins.map Prod.snd = n.ampOrigins := by
  unfold amporigins ampOrigins
  split
  · rw [List.map_map]
    conv_rhs => rw [← List.zipIdx_map_fst 0 n.inputs, List.map_map]
    rfl
  · rfl

theorem edges_dumpOutAmps : (n.dumpOutAmps color).filterMap Statement.edge? =
    if n.showOutput ∧ n.hasOutamp then [(n.outampNextId, n.outampId, true)] else [] := by
  unfold dumpOutAmps
  split
  · rfl
  · rfl

theorem declared_dumpOutAmps : (n.dumpOutAmps color).filterMap Statement.declared? =
    if n.showOutput ∧ n.hasOutamp then [n.outampId] else [] := by
  unfold dumpOutAmps
  split
  · rfl
  · rfl

/-- What the amplifiers of the inputs give, where it depends on the input alone. -/
theorem flatMap_inamps {β : Type} (f : Option ℤ → β) (h : n.hasInamp = true) :
    (n.amporigins.zip n.inamps.toList).flatMap (fun p => [f p.1.2]) = n.ampOrigins.map f := by
  have hzip := List.map_fst_zip (le_of_eq (n.amporigins_length h))
  rw [← map_amporigins, ← List.map_eq_flatMap, List.map_map]
  conv_rhs => rw [← hzip, List.map_map]
  rfl

theorem edges_dumpInAmps : (n.dumpInAmps color).filterMap Statement.edge? =
    if n.showInput ∧ n.hasInamp then
      n.ampOrigins.map fun origin => (n.inampId origin, n.inampNextId, true)
    else [] := by
  unfold dumpInAmps
  split
  · next h =>
    rw [List.filterMap_flatMap]
    exact n.flatMap_inamps (fun origin => (n.inampId origin, n.inampNextId, true)) h.2
  · rfl

theorem declared_dumpInAmps : (n.dumpInAmps color).filterMap Statement.declared? =
    if n.showInput ∧ n.hasInamp then n.ampOrigins.map n.inampId else [] := by
  unfold dumpInAmps
  split
  · next h =>
    rw [List.filterMap_flatMap]
    exact n.flatMap_inamps n.inampId h.2
  · rfl

def origins : List Node := n.inputs.filterMap fun c => (ci.getNode c).map Prod.snd

theorem edges_dumpGraph : (n.dumpGraph color ci).filterMap Statement.edge? =
    (if n.showOutput ∧ n.hasOutamp then [(n.outampNextId, n.outampId, true)] else [])
      ++ (if n.showInput ∧ n.hasInamp then
          n.ampOrigins.map fun origin => (n.inampId origin, n.inampNextId, true)
        else [])
      ++ (n.origins ci).map fun origin =>
          (origin.outId, n.inId origin.nid, n.isConnActive origin.nid) := by
  have hconns : ((n.origins ci).map fun origin => Statement.connection origin.outId
      (n.inId origin.nid) (n.isConnActive origin.nid)).filterMap Statement.edge? =
        (n.origins ci).map fun origin =>
          (origin.outId, n.inId origin.nid, n.isConnActive origin.nid) := by
    rw [List.filterMap_map, ← List.filterMap_eq_map]
    rfl
  have hmain : ∀ b id attrs, (if b = true then [Statement.node id attrs] else []).filterMap
      Statement.edge? = [] := by
    intro b id attrs
    cases b <;> rfl
  rw [← edges_dumpOutAmps n color, ← edges_dumpInAmps n color, ← hconns, dumpGraph, origins,
    List.filterMap_append]
  congr 1
  split
  · simp only [List.filterMap_append, dumpMainInput, dumpMainOutput, hmain, List.filterMap_cons,
      Statement.edge?, List.filterMap_nil, List.nil_append, List.append_nil]
  · simp only [List.filterMap_append, dumpMain, hmain, List.filterMap_cons, Statement.edge?,
      List.filterMap_nil, List.nil_append, List.append_nil]

theorem declared_dumpGraph : (n.dumpGraph color ci).filterMap Statement.declared? =
    if n.isDivided then
      (if n.showInput then [n.mainInputId] else [])
        ++ (if n.showOutput ∧ n.hasOutamp then [n.outampId] else [])
        ++ (if n.showOutput then [n.mainOutputId] else [])
        ++ (if n.showInput ∧ n.hasInamp then n.ampOrigins.map n.inampId else [])
    else
      (if n.showInput || n.showOutput then [n.mainId] else [])
        ++ (if n.showOutput ∧ n.hasOutamp then [n.outampId] else [])
        ++ (if n.showInput ∧ n.hasInamp then n.ampOrigins.map n.inampId else []) := by
  have hconns : ((n.origins ci).map fun origin => Statement.connection origin.outId
      (n.inId origin.nid) (n.isConnActive origin.nid)).filterMap Statement.declared? = [] := by
    rw [List.filterMap_map, List.filterMap_eq_nil_iff]
    exact fun _ _ => rfl
  have hmain : ∀ b id attrs, (if b = true then [Statement.node id attrs] else []).filterMap
      Statement.declared? = if b = true then [id] else [] := by
    intro b id attrs
    cases b <;> rfl
  rw [← declared_dumpOutAmps n color, ← declared_dumpInAmps n color, dumpGraph,
    List.filterMap_append]
  rw [show (n.inputs.filterMap fun c => (ci.getNode c).map Prod.snd) = n.origins ci from rfl, hconns,
    List.append_nil]
  split
  · simp only [List.filterMap_append, dumpMainInput, dumpMainOutput, hmain, List.filterMap_cons,
      Statement.declared?, List.filterMap_nil, List.nil_append, List.append_nil]
  · simp only [List.filterMap_append, dumpMain, hmain, List.filterMap_cons, Statement.declared?,
      List.filterMap_nil, List.nil_append, List.append_nil]

end Node

/-! ### The graph -/

namespace CodecInfo

variable {o : ValuesOrder} {color : Amplifier → Str} {ci : CodecInfo}

/-- The edges of the output, and if their lines are solid. -/
def edges (o : ValuesOrder) (color : Amplifier → Str) (ci : CodecInfo) : List (Str × Str × Bool) :=
  (ci.dumpGraph o color).filterMap Statement.edge?

/-- The vertices that the output declares. -/
def declared (o : ValuesOrder) (color : Amplifier → Str) (ci : CodecInfo) : List Str :=
  (ci.dumpGraph o color).filterMap Statement.declared?

/-- The lines of the drawing. -/
inductive Drawn (ci : CodecInfo) : Vertex → Vertex → Bool → Prop
  | outamp {n : Node} (hn : ci.nodes.lookup n.nid = some n) (hout : n.outputs ≠ [])
      (hamp : n.hasOutamp = true) : Drawn ci (n.vertex n.sinkPlace) (n.vertex .ampout) true
  | inamp {n : Node} (hn : ci.nodes.lookup n.nid = some n) (hin : n.inputs ≠ [])
      (hamp : n.hasInamp = true) {origin : Option ℤ} (ho : origin ∈ n.ampOrigins) :
      Drawn ci (n.vertex (.ampin origin)) (n.vertex n.sourcePlace) true
  | connection {n m : Node} (hn : ci.nodes.lookup n.nid = some n)
      (hm : ci.nodes.lookup m.nid = some m) (hc : m.nid ∈ n.inputs) :
      Drawn ci (m.vertex m.outPlace) (n.vertex (n.inPlace m.nid)) (n.isConnActive m.nid)

/-- The vertices that are declared. -/
inductive Declared (ci : CodecInfo) : Vertex → Prop
  | main {n : Node} (hn : ci.nodes.lookup n.nid = some n) (hone : n.isDivided = false)
      (hshow : n.inputs ≠ [] ∨ n.outputs ≠ []) : Declared ci (n.vertex .main)
  | input {n : Node} (hn : ci.nodes.lookup n.nid = some n) (htwo : n.isDivided = true)
      (hin : n.inputs ≠ []) : Declared ci (n.vertex .input)
  | output {n : Node} (hn : ci.nodes.lookup n.nid = some n) (htwo : n.isDivided = true)
      (hout : n.outputs ≠ []) : Declared ci (n.vertex .output)
  | ampout {n : Node} (hn : ci.nodes.lookup n.nid = some n) (hout : n.outputs ≠ [])
      (hamp : n.hasOutamp = true) : Declared ci (n.vertex .ampout)
  | ampin {n : Node} (hn : ci.nodes.lookup n.nid = some n) (hin : n.inputs ≠ [])
      (hamp : n.hasInamp = true) {origin : Option ℤ} (ho : origin ∈ n.ampOrigins) :
      Declared ci (n.vertex (.ampin origin))

theorem showInput_iff (n : Node) : n.showInput = true ↔ n.inputs ≠ [] := by
  simp [Node.showInput, allNodes]

theorem showOutput_iff (n : Node) : n.showOutput = true ↔ n.outputs ≠ [] := by
  simp [Node.showOutput, allNodes]

theorem mem_values_iff (hw : ci.Wired) {n : Node} :
    n ∈ ci.values o ↔ ci.nodes.lookup n.nid = some n := by
  rw [mem_values]
  exact ⟨fun ⟨k, hk⟩ => hw.nid_eq k n hk ▸ hk, fun h => ⟨_, h⟩⟩

/-- The nodes that are connected to a node are all there. -/
theorem mem_origins (hw : ci.Wired) {n m : Node} (hn : ci.nodes.lookup n.nid = some n) :
    m ∈ n.origins ci ↔ ci.nodes.lookup m.nid = some m ∧ m.nid ∈ n.inputs := by
  rw [Node.origins, List.mem_filterMap]
  constructor
  · rintro ⟨c, hc, hget⟩
    obtain ⟨m', hm'⟩ := hw.closed n.nid n hn c hc
    rw [getNode_eq, hm', Option.some_or] at hget
    obtain rfl := Option.some.inj hget
    rw [hw.nid_eq c m' hm']
    exact ⟨hm', hc⟩
  · rintro ⟨hm, hc⟩
    exact ⟨m.nid, hc, by rw [getNode_eq, hm, Option.some_or]⟩

/-- **The edges of the output are the lines of the drawing.** -/
theorem mem_edges (hw : ci.Wired) {s t : Str} {solid : Bool} :
    (s, t, solid) ∈ ci.edges o color ↔ ∃ x y, Drawn ci x y solid ∧ x.text = s ∧ y.text = t := by
  rw [edges, dumpGraph, List.filterMap_flatMap, List.mem_flatMap]
  simp only [Node.edges_dumpGraph, List.mem_append, List.mem_ite_nil_right, List.mem_singleton,
    List.mem_map, Prod.mk.injEq, mem_values_iff hw, showInput_iff, showOutput_iff]
  constructor
  · rintro ⟨n, hn, (⟨⟨hout, hamp⟩, rfl, rfl, rfl⟩ | ⟨⟨hin, hamp⟩, origin, ho, rfl, rfl, rfl⟩) |
      ⟨m, hm, rfl, rfl, rfl⟩⟩
    · exact ⟨_, _, .outamp hn hout hamp, (n.outampNextId_eq).symm, rfl⟩
    · exact ⟨_, _, .inamp hn hin hamp ho, (n.inampId_eq ho).symm, (n.inampNextId_eq).symm⟩
    · obtain ⟨hm, hc⟩ := (mem_origins hw hn).mp hm
      exact ⟨_, _, .connection hn hm hc, (m.outId_eq).symm, (n.inId_eq m.nid).symm⟩
  · rintro ⟨x, y, h, rfl, rfl⟩
    cases h with
    | @outamp n hn hout hamp =>
        exact ⟨n, hn, Or.inl (Or.inl ⟨⟨hout, hamp⟩, n.outampNextId_eq.symm, rfl, rfl⟩)⟩
    | @inamp n hn hin hamp origin ho =>
        exact ⟨n, hn, Or.inl (Or.inr ⟨⟨hin, hamp⟩, origin, ho, n.inampId_eq ho,
          n.inampNextId_eq, rfl⟩)⟩
    | @connection n m hn hm hc =>
        exact ⟨n, hn, Or.inr ⟨m, (mem_origins hw hn).mpr ⟨hm, hc⟩, m.outId_eq, n.inId_eq m.nid,
          rfl⟩⟩

theorem mem_declared_dumpGraph (n : Node) {s : Str} :
    s ∈ (n.dumpGraph color ci).filterMap Statement.declared? ↔
      (n.isDivided = false ∧ (n.inputs ≠ [] ∨ n.outputs ≠ []) ∧ s = n.mainId) ∨
      (n.isDivided = true ∧ n.inputs ≠ [] ∧ s = n.mainInputId) ∨
      (n.isDivided = true ∧ n.outputs ≠ [] ∧ s = n.mainOutputId) ∨
      (n.outputs ≠ [] ∧ n.hasOutamp = true ∧ s = n.outampId) ∨
      (n.inputs ≠ [] ∧ n.hasInamp = true ∧ ∃ origin ∈ n.ampOrigins, n.inampId origin = s) := by
  rw [Node.declared_dumpGraph]
  cases hdivided : n.isDivided with
  | true =>
      rw [if_pos rfl]
      simp only [List.mem_append, List.mem_ite_nil_right, List.mem_singleton, List.mem_map,
        showInput_iff, showOutput_iff, Bool.true_eq_false, false_and, true_and, false_or, and_assoc,
        or_assoc]
      exact or_congr_right or_left_comm
  | false =>
      rw [if_neg Bool.false_ne_true]
      simp only [List.mem_append, List.mem_ite_nil_right, List.mem_singleton, List.mem_map,
        Bool.or_eq_true, showInput_iff, showOutput_iff, Bool.false_eq_true, true_and, false_and,
        false_or, and_assoc, or_assoc]

/-- **What the output declares.** -/
theorem mem_declared (hw : ci.Wired) {s : Str} :
    s ∈ ci.declared o color ↔ ∃ x, Declared ci x ∧ x.text = s := by
  rw [declared, dumpGraph, List.filterMap_flatMap, List.mem_flatMap]
  simp only [mem_declared_dumpGraph, mem_values_iff hw]
  constructor
  · rintro ⟨n, hn, ⟨hone, hshow, rfl⟩ | ⟨htwo, hin, rfl⟩ | ⟨htwo, hout, rfl⟩ | ⟨hout, hamp, rfl⟩ |
      ⟨hin, hamp, origin, ho, rfl⟩⟩
    · exact ⟨_, .main hn hone hshow, rfl⟩
    · exact ⟨_, .input hn htwo hin, rfl⟩
    · exact ⟨_, .output hn htwo hout, rfl⟩
    · exact ⟨_, .ampout hn hout hamp, rfl⟩
    · exact ⟨_, .ampin hn hin hamp ho, (n.inampId_eq ho).symm⟩
  · rintro ⟨x, h, rfl⟩
    cases h with
    | @main n hn hone hshow => exact ⟨n, hn, Or.inl ⟨hone, hshow, rfl⟩⟩
    | @input n hn htwo hin => exact ⟨n, hn, Or.inr (Or.inl ⟨htwo, hin, rfl⟩)⟩
    | @output n hn htwo hout => exact ⟨n, hn, Or.inr (Or.inr (Or.inl ⟨htwo, hout, rfl⟩))⟩
    | @ampout n hn hout hamp =>
        exact ⟨n, hn, Or.inr (Or.inr (Or.inr (Or.inl ⟨hout, hamp, rfl⟩)))⟩
    | @ampin n hn hin hamp origin ho =>
        exact ⟨n, hn, Or.inr (Or.inr (Or.inr (Or.inr ⟨hin, hamp, origin, ho, n.inampId_eq ho⟩)))⟩

end CodecInfo

end AppleALC.HdaTools.Codecgraph
