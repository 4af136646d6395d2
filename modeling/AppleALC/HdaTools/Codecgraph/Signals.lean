import AppleALC.HdaTools.Codecgraph.Drawing
import AppleALC.Library.NamedGraph

/-!
# What the drawing of a codec shows

Every line of the drawing ends at vertices that are declared, but for a pin that has an amplifier on
the side where nothing is connected: that half of the pin is not drawn.  The paths of the drawing are
the ways that a signal can take through the codec, and the paths of solid lines are those through the
connections that are selected.

* `HalfDrawn` / `edges_declared_iff` — a line ends outside of the drawing exactly at such pins;
* `Signal` — a way through connections, with no pin in between;
* `path_iff_signal` — the paths of the drawing are these ways.
-/

namespace AppleALC.HdaTools.Codecgraph

open PyText Relation

namespace CodecInfo

variable {o : ValuesOrder} {color : Amplifier → Str} {ci : CodecInfo}

/-! ### Lines between vertices -/

/-- The lines of the drawing, or only those that are solid. -/
def Line (solidOnly : Bool) (ci : CodecInfo) (x y : Vertex) : Prop :=
  ∃ solid, (solidOnly = true → solid = true) ∧ Drawn ci x y solid

/-- The edges of the output, or only those that are solid. -/
def Edge (o : ValuesOrder) (color : Amplifier → Str) (solidOnly : Bool) (ci : CodecInfo)
    (s t : Str) : Prop :=
  ∃ solid, (solidOnly = true → solid = true) ∧ (s, t, solid) ∈ ci.edges o color

/-- The edges between names are the lines between vertices. -/
theorem edge_eq_map (hw : ci.Wired) (solidOnly : Bool) :
    Edge o color solidOnly ci = Relation.Map (Line solidOnly ci) Vertex.text Vertex.text := by
  funext s t
  simp only [Edge, mem_edges hw, Relation.Map, Line, eq_iff_iff]
  constructor
  · rintro ⟨solid, hsolid, x, y, h, hs, ht⟩
    exact ⟨x, y, ⟨solid, hsolid, h⟩, hs, ht⟩
  · rintro ⟨x, y, ⟨solid, hsolid, h⟩, hs, ht⟩
    exact ⟨solid, hsolid, x, y, h, hs, ht⟩

theorem Line.nonneg (hw : ci.Wired) {solidOnly : Bool} {x y : Vertex} (h : Line solidOnly ci x y) :
    0 ≤ x.nid ∧ 0 ≤ y.nid := by
  obtain ⟨solid, -, h⟩ := h
  cases h with
  | outamp hn => exact ⟨hw.nonneg _ _ hn, hw.nonneg _ _ hn⟩
  | inamp hn => exact ⟨hw.nonneg _ _ hn, hw.nonneg _ _ hn⟩
  | connection hn hm => exact ⟨hw.nonneg _ _ hm, hw.nonneg _ _ hn⟩

theorem Declared.nonneg (hw : ci.Wired) {x : Vertex} (h : Declared ci x) : 0 ≤ x.nid := by
  cases h with
  | main hn => exact hw.nonneg _ _ hn
  | input hn => exact hw.nonneg _ _ hn
  | output hn => exact hw.nonneg _ _ hn
  | ampout hn => exact hw.nonneg _ _ hn
  | ampin hn => exact hw.nonneg _ _ hn

theorem node_eq {n m : Node} (hn : ci.nodes.lookup n.nid = some n)
    (hm : ci.nodes.lookup m.nid = some m) (h : n.nid = m.nid) : n = m := by
  rw [h, hm] at hn
  exact (Option.some.inj hn).symm

/-! ### Vertices that are not declared -/

/-- A pin of which one half is not drawn, though a line of an amplifier ends there. -/
def HalfDrawn (n : Node) : Prop :=
  n.isDivided = true ∧ ((n.hasOutamp = true ∧ n.outputs ≠ [] ∧ n.inputs = []) ∨
    (n.hasInamp = true ∧ n.inputs ≠ [] ∧ n.outputs = []))

instance : DecidablePred HalfDrawn := fun _ => inferInstanceAs (Decidable (_ ∧ _))

/-- Half of a pin is declared only if there is something on its side. -/
theorem Declared.connected {x : Vertex} (h : Declared ci x) {n : Node}
    (hn : ci.nodes.lookup n.nid = some n) (hx : x.nid = n.nid) :
    (x.place = .input → n.inputs ≠ []) ∧ (x.place = .output → n.outputs ≠ []) := by
  cases h with
  | main hm => exact ⟨by simp [Node.vertex], by simp [Node.vertex]⟩
  | input hm htwo hin => exact ⟨fun _ => node_eq hm hn hx ▸ hin, by simp [Node.vertex]⟩
  | output hm htwo hout => exact ⟨by simp [Node.vertex], fun _ => node_eq hm hn hx ▸ hout⟩
  | ampout hm => exact ⟨by simp [Node.vertex], by simp [Node.vertex]⟩
  | ampin hm => exact ⟨by simp [Node.vertex], by simp [Node.vertex]⟩

/-- Both ends of a connection are declared. -/
theorem connection_declared (hw : ci.Wired) {n m : Node} (hn : ci.nodes.lookup n.nid = some n)
    (hm : ci.nodes.lookup m.nid = some m) (hc : m.nid ∈ n.inputs) :
    Declared ci (m.vertex m.outPlace) ∧ Declared ci (n.vertex (n.inPlace m.nid)) := by
  have hin : n.inputs ≠ [] := List.ne_nil_of_mem hc
  have hout : m.outputs ≠ [] :=
    List.ne_nil_of_mem ((hw.outputs_iff m.nid m hm n.nid).mpr ⟨n, hn, hc⟩)
  constructor
  · unfold Node.outPlace
    split
    · next htwo => exact .output hm htwo hout
    · next hone =>
      split
      · next hamp => exact .ampout hm hout hamp
      · exact .main hm (Bool.eq_false_of_not_eq_true hone) (Or.inr hout)
  · unfold Node.inPlace
    split
    · next htwo => exact .input hn htwo hin
    · next hone =>
      split
      · next hamp =>
        refine .ampin hn hin hamp ?_
        unfold Node.ampOrigins
        split
        · exact List.mem_map_of_mem hc
        · exact List.mem_singleton_self _
      · exact .main hn (Bool.eq_false_of_not_eq_true hone) (Or.inl hin)

theorem exists_mem_ampOrigins {n : Node} (hin : n.inputs ≠ []) : ∃ origin, origin ∈ n.ampOrigins := by
  unfold Node.ampOrigins
  split
  · obtain ⟨c, hc⟩ := List.exists_mem_of_ne_nil _ hin
    exact ⟨some c, List.mem_map_of_mem hc⟩
  · exact ⟨none, List.mem_singleton_self _⟩

/-- The lines end at declared vertices, unless they are those of half a pin. -/
theorem line_declared_iff (hw : ci.Wired) :
    (∀ x y, Line false ci x y → Declared ci x ∧ Declared ci y) ↔
      ∀ n, ci.nodes.lookup n.nid = some n → ¬ HalfDrawn n := by
  constructor
  · rintro h n hn ⟨htwo, ⟨hamp, hout, hnil⟩ | ⟨hamp, hin, hnil⟩⟩
    · have hend := (h _ _ ⟨true, fun _ => rfl, .outamp hn hout hamp⟩).1
      rw [Node.sinkPlace, if_pos htwo] at hend
      exact (hend.connected hn rfl).1 rfl hnil
    · obtain ⟨origin, ho⟩ := exists_mem_ampOrigins hin
      have hend := (h _ _ ⟨true, fun _ => rfl, .inamp hn hin hamp ho⟩).2
      rw [Node.sourcePlace, if_pos htwo] at hend
      exact (hend.connected hn rfl).2 rfl hnil
  · rintro h x y ⟨solid, -, hdrawn⟩
    cases hdrawn with
    | @outamp n hn hout hamp =>
        refine ⟨?_, .ampout hn hout hamp⟩
        unfold Node.sinkPlace
        split
        · next htwo => exact .input hn htwo fun hnil => h n hn ⟨htwo, Or.inl ⟨hamp, hout, hnil⟩⟩
        · next hone => exact .main hn (Bool.eq_false_of_not_eq_true hone) (Or.inr hout)
    | @inamp n hn hin hamp origin ho =>
        refine ⟨.ampin hn hin hamp ho, ?_⟩
        unfold Node.sourcePlace
        split
        · next htwo => exact .output hn htwo fun hnil => h n hn ⟨htwo, Or.inr ⟨hamp, hin, hnil⟩⟩
        · next hone => exact .main hn (Bool.eq_false_of_not_eq_true hone) (Or.inl hin)
    | connection hn hm hc => exact connection_declared hw hn hm hc

/-- **The lines of the drawing end at vertices that it declares, but for half pins.** -/
theorem edges_declared_iff {lines : List Str} (h : init o lines = some ci) :
    (∀ e ∈ ci.edges o color, e.1 ∈ ci.declared o color ∧ e.2.1 ∈ ci.declared o color) ↔
      ∀ n ∈ ci.values o, ¬ HalfDrawn n := by
  have hw := init_wired h
  have hedges : (∀ e ∈ ci.edges o color, e.1 ∈ ci.declared o color ∧ e.2.1 ∈ ci.declared o color) ↔
      ∀ s t, Edge o color false ci s t →
        (∃ x, Declared ci x ∧ x.text = s) ∧ ∃ x, Declared ci x ∧ x.text = t := by
    simp only [mem_declared hw]
    exact ⟨fun hall s t ⟨solid, _, he⟩ => hall _ he, fun hall e he =>
      hall e.1 e.2.1 ⟨e.2.2, fun h => absurd h Bool.false_ne_true, he⟩⟩
  simp only [mem_values_iff hw]
  rw [hedges, ← line_declared_iff hw, edge_eq_map hw]
  exact NamedGraph.closed_iff (P := fun x => 0 ≤ x.nid) (fun x y => Vertex.text_injective)
    (fun x y hline => hline.nonneg hw) fun x hx => hx.nonneg hw

/-- The values of a dictionary as they were inserted. -/
def insertionOrder : ValuesOrder := ⟨id, fun _ => .refl _⟩

/-- A converter, and a pin that it feeds. -/
def converterAndPin : List Str :=
  ["Node 0x02 [Audio Output] wcaps 0x411: Stereo\n",
    "Node 0x14 [Pin Complex] wcaps 0x40058d: Stereo Amp-Out\n",
    "  Amp-Out caps: ofs=0x00, nsteps=0x00, stepsize=0x00, mute=1\n",
    "  Amp-Out vals:  [0x00 0x00]\n",
    "  Connection: 1\n",
    "     0x02\n"].map String.toList

/-- A pin with an output amplifier, which is connected to a converter. -/
def pinAndConverter : List Str :=
  ["Node 0x18 [Pin Complex] wcaps 0x40058d: Stereo Amp-Out\n",
    "  Amp-Out caps: ofs=0x00, nsteps=0x00, stepsize=0x00, mute=1\n",
    "  Amp-Out vals:  [0x00 0x00]\n",
    "Node 0x08 [Audio Input] wcaps 0x10051b: Stereo\n",
    "  Connection: 1\n",
    "     0x18\n"].map String.toList

/-- The first pin is connected to nothing behind it, and its amplifier is not drawn.  The amplifier of
the second one is drawn, and its line begins at a half that is not. -/
theorem edges_declared_iff_sample :
    (∃ ci, init insertionOrder converterAndPin = some ci ∧
      ∀ e ∈ ci.edges insertionOrder fun _ => [],
        e.1 ∈ ci.declared insertionOrder (fun _ => []) ∧
          e.2.1 ∈ ci.declared insertionOrder fun _ => []) ∧
    ∃ ci, init insertionOrder pinAndConverter = some ci ∧
      ¬ ∀ e ∈ ci.edges insertionOrder fun _ => [],
        e.1 ∈ ci.declared insertionOrder (fun _ => []) ∧
          e.2.1 ∈ ci.declared insertionOrder fun _ => [] := by
  have hwhole : ((init insertionOrder converterAndPin).map fun ci =>
      (ci.values insertionOrder).all fun n => !decide (HalfDrawn n)) = some true := by decide +kernel
  have hhalf : ((init insertionOrder pinAndConverter).map fun ci =>
      (ci.values insertionOrder).any fun n => decide (HalfDrawn n)) = some true := by decide +kernel
  constructor
  · obtain ⟨ci, h, hall⟩ := Option.map_eq_some_iff.mp hwhole
    refine ⟨ci, h, (edges_declared_iff h).mpr fun n hn => ?_⟩
    simpa using List.all_eq_true.mp hall n hn
  · obtain ⟨ci, h, hany⟩ := Option.map_eq_some_iff.mp hhalf
    obtain ⟨n, hn, hdrawn⟩ := List.any_eq_true.mp hany
    exact ⟨ci, h, fun hall => (edges_declared_iff h).mp hall n hn (of_decide_eq_true hdrawn)⟩

/-! ### Signals -/

/-- The node `m` is connected to `n`, and the connection is selected if only such ones count. -/
def Feeds (activeOnly : Bool) (ci : CodecInfo) (m n : Node) : Prop :=
  ci.nodes.lookup n.nid = some n ∧ ci.nodes.lookup m.nid = some m ∧ m.nid ∈ n.inputs ∧
    (activeOnly = true → n.isConnActive m.nid = true)

/-- A signal gets from a node to another one through connections.  It does not get through a pin. -/
inductive Signal (activeOnly : Bool) (ci : CodecInfo) (a : Node) : Node → Prop
  | direct {b : Node} (h : Feeds activeOnly ci a b) : Signal activeOnly ci a b
  | through {m b : Node} (hm : Signal activeOnly ci a m) (hone : m.isDivided = false)
      (h : Feeds activeOnly ci m b) : Signal activeOnly ci a b

variable {only : Bool} {a b m n : Node}

/-- From the node to where its connections begin. -/
theorem leave (hm : ci.nodes.lookup m.nid = some m) (hout : m.outputs ≠ []) :
    ReflTransGen (Line only ci) (m.vertex m.sourcePlace) (m.vertex m.outPlace) := by
  unfold Node.outPlace Node.sourcePlace
  split
  · exact .refl
  · next hone =>
    split
    · next hamp =>
      have hline := Drawn.outamp hm hout hamp
      rw [Node.sinkPlace, if_neg hone] at hline
      exact .single ⟨true, fun _ => rfl, hline⟩
    · exact .refl

/-- From where a connection ends into the node. -/
theorem enter (hn : ci.nodes.lookup n.nid = some n) (hc : m.nid ∈ n.inputs) :
    ReflTransGen (Line only ci) (n.vertex (n.inPlace m.nid)) (n.vertex n.sinkPlace) := by
  unfold Node.inPlace Node.sinkPlace
  split
  · exact .refl
  · next hone =>
    split
    · next hamp =>
      have ho : (if n.manyAmpins = true then some m.nid else none) ∈ n.ampOrigins := by
        unfold Node.ampOrigins
        split
        · exact List.mem_map_of_mem hc
        · exact List.mem_singleton_self _
      have hline := Drawn.inamp hn (List.ne_nil_of_mem hc) hamp ho
      rw [Node.sourcePlace, if_neg hone] at hline
      exact .single ⟨true, fun _ => rfl, hline⟩
    · exact .refl

/-- A connection is a path of the drawing. -/
theorem path_of_feeds (hw : ci.Wired) (h : Feeds only ci m n) :
    TransGen (Line only ci) (m.vertex m.sourcePlace) (n.vertex n.sinkPlace) := by
  obtain ⟨hn, hm, hc, hactive⟩ := h
  have hout : m.outputs ≠ [] :=
    List.ne_nil_of_mem ((hw.outputs_iff m.nid m hm n.nid).mpr ⟨n, hn, hc⟩)
  exact TransGen.trans_left (TransGen.tail' (leave hm hout) ⟨_, hactive, .connection hn hm hc⟩)
    (enter hn hc)

theorem path_of_signal (hw : ci.Wired) (h : Signal only ci a b) :
    TransGen (Line only ci) (a.vertex a.sourcePlace) (b.vertex b.sinkPlace) := by
  induction h with
  | direct h => exact path_of_feeds hw h
  | @through m b _ hone h ih =>
      have hnot : ¬ m.isDivided = true := by simp [hone]
      have hpath := path_of_feeds hw h
      rw [Node.sourcePlace, if_neg hnot] at hpath
      rw [Node.sinkPlace, if_neg hnot] at ih
      exact ih.trans hpath

/-- What a path from `a` has shown when it comes to a place at a node. -/
def Reached (only : Bool) (ci : CodecInfo) (a n : Node) : Place → Prop
  | .main => Signal only ci a n ∧ n.isDivided = false
  | .input => Signal only ci a n
  | .output => False
  | .ampout => n.isDivided = false → n = a ∨ Signal only ci a n
  | .ampin _ => Signal only ci a n ∧ n.isDivided = false

/-- Where a connection ends, its node has the signal. -/
theorem reached_inPlace (c : ℤ) (h : Signal only ci a n) : Reached only ci a n (n.inPlace c) := by
  unfold Node.inPlace
  split
  · exact h
  · next hone =>
    split
    · exact ⟨h, Bool.eq_false_of_not_eq_true hone⟩
    · exact ⟨h, Bool.eq_false_of_not_eq_true hone⟩

/-- A path that begins at `a` and comes to where connections begin can take one of them. -/
theorem signal_of_reached_outPlace (h : Reached only ci a m m.outPlace)
    (hfeeds : Feeds only ci m n) : Signal only ci a n := by
  unfold Node.outPlace at h
  split at h
  · exact h.elim
  · next hone =>
    have hone := Bool.eq_false_of_not_eq_true hone
    split at h
    · rcases h hone with rfl | hsignal
      · exact .direct hfeeds
      · exact .through hsignal hone hfeeds
    · exact .through h.1 hone hfeeds

/-- One line further. -/
theorem reached_step {x y : Vertex} (h : Line only ci x y)
    (hx : ∀ n, ci.nodes.lookup n.nid = some n → n.nid = x.nid → Reached only ci a n x.place) :
    ∀ n, ci.nodes.lookup n.nid = some n → n.nid = y.nid → Reached only ci a n y.place := by
  obtain ⟨solid, hsolid, h⟩ := h
  intro k hk hky
  cases h with
  | @outamp n hn hout hamp =>
      obtain rfl := node_eq hk hn hky
      have hreached := hx k hk rfl
      intro hone
      rw [Node.vertex, Node.sinkPlace, if_neg (by simp [hone])] at hreached
      exact Or.inr hreached.1
  | @inamp n hn hin hamp origin ho =>
      obtain rfl := node_eq hk hn hky
      have hreached : Signal only ci a k ∧ k.isDivided = false := hx k hk rfl
      show Reached only ci a k k.sourcePlace
      rw [Node.sourcePlace, if_neg (by simp [hreached.2])]
      exact hreached
  | @connection n m hn hm hc =>
      obtain rfl := node_eq hk hn hky
      exact reached_inPlace _ (signal_of_reached_outPlace (hx m hm rfl) ⟨hk, hm, hc, hsolid⟩)

/-- The first line. -/
theorem reached_first (ha : ci.nodes.lookup a.nid = some a) {y : Vertex}
    (h : Line only ci (a.vertex a.sourcePlace) y) :
    ∀ n, ci.nodes.lookup n.nid = some n → n.nid = y.nid → Reached only ci a n y.place := by
  obtain ⟨solid, hsolid, h⟩ := h
  generalize hx : a.vertex a.sourcePlace = x at h
  intro k hk hky
  cases h with
  | @outamp n hn hout hamp =>
      obtain rfl := node_eq hk hn hky
      exact fun _ => Or.inl (node_eq hk ha (congrArg Vertex.nid hx).symm)
  | @inamp n hn hin hamp origin ho =>
      have hplace : a.sourcePlace = .ampin origin := congrArg Vertex.place hx
      unfold Node.sourcePlace at hplace
      split at hplace
      · cases hplace
      · cases hplace
  | @connection n m hn hm hc =>
      obtain rfl := node_eq hk hn hky
      obtain rfl := node_eq hm ha (congrArg Vertex.nid hx).symm
      exact reached_inPlace _ (.direct ⟨hk, hm, hc, hsolid⟩)

theorem signal_of_path (ha : ci.nodes.lookup a.nid = some a) (hb : ci.nodes.lookup b.nid = some b)
    (h : TransGen (Line only ci) (a.vertex a.sourcePlace) (b.vertex b.sinkPlace)) :
    Signal only ci a b := by
  have hreached : ∀ {y : Vertex}, TransGen (Line only ci) (a.vertex a.sourcePlace) y →
      ∀ n, ci.nodes.lookup n.nid = some n → n.nid = y.nid → Reached only ci a n y.place := by
    intro y hy
    induction hy with
    | single hline => exact reached_first ha hline
    | tail _ hline ih => exact reached_step hline ih
  have hend := hreached h b hb rfl
  rw [Node.vertex, Node.sinkPlace] at hend
  split at hend
  · exact hend
  · exact hend.1

/-- The paths of a wired codec. -/
theorem path_iff (hw : ci.Wired) (ha : ci.nodes.lookup a.nid = some a)
    (hb : ci.nodes.lookup b.nid = some b) :
    TransGen (Edge o color only ci) a.inampNextId b.outampNextId ↔ Signal only ci a b := by
  rw [edge_eq_map hw, a.inampNextId_eq, b.outampNextId_eq,
    NamedGraph.transGen_map_iff (P := fun x => 0 ≤ x.nid) (fun x y => Vertex.text_injective)
      (fun x y hline => hline.nonneg hw) (hw.nonneg _ _ ha) (hw.nonneg _ _ hb)]
  exact ⟨signal_of_path ha hb, path_of_signal hw⟩

/-- **The paths of the drawing are the ways of the signals.**  From where the lines out of a node
begin there is a path to where the lines into another one end exactly if a signal gets there through
the connections of the codec.  With solid lines alone, it does so through selected connections. -/
theorem path_iff_signal {lines : List Str} (h : init o lines = some ci) (only : Bool) {a b : Node}
    (ha : a ∈ ci.values o) (hb : b ∈ ci.values o) :
    TransGen (Edge o color only ci) a.inampNextId b.outampNextId ↔ Signal only ci a b := by
  have hw := init_wired h
  rw [mem_values_iff hw] at ha hb
  exact path_iff hw ha hb

/-- A path of solid lines leads from the converter of the sample to the pin. -/
theorem path_iff_signal_sample : ∃ (ci : CodecInfo) (a b : Node),
    init insertionOrder converterAndPin = some ci ∧ a.nid = 2 ∧ b.nid = 20 ∧
    TransGen (Edge insertionOrder (fun _ => []) true ci) a.inampNextId b.outampNextId := by
  have hrun : ((init insertionOrder converterAndPin).bind fun ci =>
      (ci.nodes.lookup 2).bind fun a => (ci.nodes.lookup 20).map fun b =>
        decide (a.nid = 2 ∧ b.nid = 20 ∧ a.nid ∈ b.inputs ∧ b.isConnActive a.nid = true)) =
      some true := by decide +kernel
  obtain ⟨ci, h, hrun⟩ := Option.bind_eq_some_iff.mp hrun
  obtain ⟨a, ha, hrun⟩ := Option.bind_eq_some_iff.mp hrun
  obtain ⟨b, hb, hrun⟩ := Option.map_eq_some_iff.mp hrun
  obtain ⟨hanid, hbnid, hc, hactive⟩ := of_decide_eq_true hrun
  refine ⟨ci, a, b, h, hanid, hbnid, (path_iff_signal h true (mem_values.mpr ⟨2, ha⟩)
    (mem_values.mpr ⟨20, hb⟩)).mpr (.direct ⟨?_, ?_, hc, fun _ => hactive⟩)⟩
  · rw [hbnid, hb]
  · rw [hanid, ha]

end CodecInfo

end AppleALC.HdaTools.Codecgraph
