import Mathlib.Data.List.AList
import AppleALC.HdaTools.Codecgraph.Node

/-!
# The codec of codecgraph.py

`CodecInfo` keeps the nodes of a dump by their numbers.  A connection to a number without a node gets
a node of its own, so in the end every connection leads to a node, and every node knows the nodes
that it is connected to.

The order of the values of a dictionary is not specified; it is a parameter.

* `CodecInfo` / `CodecInfo.init` — the codec that the script makes of the lines of a dump;
* `connect` / `foldlM_connect` — what the walk over the connections leaves in the lists of a node;
* `Wired` / `init_wired` — in an accepted dump, every connection is there from both of its ends.
-/

namespace AppleALC.HdaTools.Codecgraph

open PyText

/-- An order of the values of a dictionary. -/
structure ValuesOrder where
  order : List Node → List Node
  perm : ∀ nodes, (order nodes).Perm nodes

structure CodecInfo where
  nodes : AList fun _ : ℤ => Node := ∅

namespace CodecInfo

def values (o : ValuesOrder) (ci : CodecInfo) : List Node := o.order (ci.nodes.entries.map Sigma.snd)

/-- The heading of a node that is made up. -/
def unknownItem (nid : ℤ) : Str :=
  "Node 0x".toList ++ (hex02 nid ++ " [Unknown Node] wcaps 0x0000: ".toList)

/-- `get_node`: the node of a number, which is made up if there is none. -/
def getNode (ci : CodecInfo) (nid : ℤ) : Option (CodecInfo × Node) :=
  match ci.nodes.lookup nid with
  | some n => some (ci, n)
  | none => (Node.init (unknownItem nid) .nil).map fun n =>
      let n := { n with unknown := true }
      ({ ci with nodes := ci.nodes.insert nid n }, n)

/-- `new_output` at the node that a connection leads from. -/
def connect (nid : ℤ) (ci : CodecInfo) (input : ℤ) : Option CodecInfo :=
  (ci.getNode input).map fun (ci, i) =>
    { ci with nodes := ci.nodes.insert input { i with outputs := i.outputs ++ [nid] } }

/-- The connections of one node. -/
def connectAll (ci : CodecInfo) (n : Node) : Option CodecInfo := n.inputs.foldlM (connect n.nid) ci

def createOutLists (o : ValuesOrder) (ci : CodecInfo) : Option CodecInfo :=
  (ci.values o).foldlM connectAll ci

/-- An item that is a key without a value gets the blank behind the colon back. -/
def keyItem (item : Str) : Str :=
  if !isIn ": ".toList item && ":".toList.isSuffixOf item then item ++ [' '] else item

def readItem (ci : CodecInfo) (entry : Str × Outline Str) : Option CodecInfo :=
  if "Node ".toList.isPrefixOf (keyItem entry.1) then
    (Node.init (keyItem entry.1) entry.2).map fun n => { ci with nodes := ci.nodes.insert n.nid n }
  else some ci

def init (o : ValuesOrder) (lines : List Str) : Option CodecInfo :=
  ((parseLines lines).tops.foldlM readItem {}).bind (createOutLists o)

end CodecInfo

namespace CodecInfo

/-! ### A node that is made up -/

/-- The node for a connection that leads nowhere. -/
def madeUp (nid : ℤ) : Option Node :=
  (Node.init (unknownItem nid) .nil).map fun n => { n with unknown := true }

/-- A node that is made up has the number that it is made up for, and leads nowhere itself. -/
structure IsMadeUp (nid : ℤ) (n : Node) : Prop where
  nid_eq : n.nid = nid
  type_eq : n.type = "Unknown Node".toList
  wcaps_eq : n.wcaps = []
  inputs_eq : n.inputs = []
  outputs_eq : n.outputs = []
  unknown_eq : n.unknown = true

theorem nodeInfo_unknownItem (k : ℕ) :
    nodeInfo (unknownItem k) = some ('0' :: 'x' :: hex02 k, "Unknown Node".toList, []) := by
  have hrest : " [".toList ++ ("Unknown Node".toList ++ ("] wcaps 0x".toList ++
      ("0000".toList ++ (": ".toList ++ [])))) = " [Unknown Node] wcaps 0x0000: ".toList := by decide
  have hzeros : "0000".toList.all HexWord.isLowerHex = true := by decide
  have h := @nodeInfo_heading _ "Unknown Node".toList _ (hex02_natCast k).1 (by decide)
    (List.all_eq_true.mp hzeros) []
  rw [hrest] at h
  exact h

theorem madeUp_natCast (k : ℕ) : ∃ n, madeUp k = some n ∧ IsMadeUp k n := by
  have hhead : ∃ head, NodeHead.init (unknownItem k) .nil = some head ∧ head.nid = k ∧
      head.type = "Unknown Node".toList ∧ head.wcaps = [] ∧ head.inputs = [] := by
    obtain ⟨hhex, hne, hval⟩ := hex02_natCast k
    rw [NodeHead.init, nodeInfo_unknownItem, Option.bind_eq_bind, Option.bind_some,
      int_hexNumeral hhex hne, hval]
    exact ⟨_, rfl, rfl, rfl, rfl, rfl⟩
  obtain ⟨head, hhead, hnid, htype, hwcaps, hinputs⟩ := hhead
  have hin : head.hasInamp = false := by rw [NodeHead.hasInamp, hwcaps]; rfl
  have hout : head.hasOutamp = false := by rw [NodeHead.hasOutamp, hwcaps]; rfl
  have hamps : head.withAmps.isSome := NodeHead.withAmps_isSome
    (fun h => absurd (hin.symm.trans h) Bool.false_ne_true)
    fun h => absurd (hout.symm.trans h) Bool.false_ne_true
  obtain ⟨n, hn⟩ := Option.isSome_iff_exists.mp hamps
  have hinit : Node.init (unknownItem k) .nil = some n := by
    rw [Node.init, hhead, Option.bind_some, hn]
  obtain ⟨rfl, houtputs, -⟩ := NodeHead.withAmps_spec hn
  exact ⟨{ n with unknown := true }, by rw [madeUp, hinit]; rfl,
    hnid, htype, hwcaps, hinputs, houtputs, rfl⟩

theorem madeUp_negSucc (k : ℕ) : madeUp (.negSucc k) = none := by
  have hinfo : nodeInfo (unknownItem (.negSucc k)) = none := nodeInfo_minus _
  rw [madeUp, Node.init, NodeHead.init, hinfo]
  rfl

theorem madeUp_spec {nid : ℤ} {n : Node} (h : madeUp nid = some n) : 0 ≤ nid ∧ IsMadeUp nid n := by
  cases nid with
  | ofNat k =>
      obtain ⟨m, hm, hspec⟩ := madeUp_natCast k
      obtain rfl := Option.some.inj (hm.symm.trans h)
      exact ⟨Int.natCast_nonneg k, hspec⟩
  | negSucc k => exact absurd ((madeUp_negSucc k).symm.trans h) (by simp)

/-! ### The lists of outputs -/

variable {o : ValuesOrder} {ci ci' : CodecInfo}

theorem getNode_eq (ci : CodecInfo) (nid : ℤ) :
    (ci.getNode nid).map Prod.snd = (ci.nodes.lookup nid).or (madeUp nid) := by
  rw [getNode, madeUp]
  cases ci.nodes.lookup nid with
  | some n => rfl
  | none => rw [Option.map_map]; rfl

/-- A connection is added to the outputs of the node that it leads from. -/
theorem connect_lookup {nid input : ℤ} (h : connect nid ci input = some ci') :
    ∃ i, (ci.nodes.lookup input).or (madeUp input) = some i ∧
      ∀ k, ci'.nodes.lookup k =
        if k = input then some { i with outputs := i.outputs ++ [nid] } else ci.nodes.lookup k := by
  obtain ⟨⟨ci₁, i⟩, hget, rfl⟩ := Option.map_eq_some_iff.mp h
  refine ⟨i, by rw [← getNode_eq, hget]; rfl, fun k => ?_⟩
  by_cases hk : k = input
  · rw [hk, if_pos rfl, AList.lookup_insert]
  · rw [if_neg hk, AList.lookup_insert_ne hk]
    unfold getNode at hget
    split at hget
    · obtain rfl := (Prod.mk.inj (Option.some.inj hget)).1
      rfl
    · obtain ⟨n, -, heq⟩ := Option.map_eq_some_iff.mp hget
      obtain rfl := (Prod.mk.inj heq).1
      exact AList.lookup_insert_ne hk

/-- The connections of nodes, each with the number of its node. -/
def connections (nodes : List Node) : List (ℤ × ℤ) :=
  nodes.flatMap fun n => n.inputs.map fun input => (n.nid, input)

/-- `create_out_lists` goes through the connections. -/
theorem foldlM_connectAll (nodes : List Node) (ci : CodecInfo) :
    nodes.foldlM connectAll ci = (connections nodes).foldlM (fun ci c => connect c.1 ci c.2) ci := by
  induction nodes generalizing ci with
  | nil => rfl
  | cons n nodes ih =>
      rw [connections, List.flatMap_cons, List.foldlM_append, List.foldlM_cons, List.foldlM_map,
        connectAll]
      exact bind_congr fun ci => ih ci

/-- **The outputs after some connections.**  A number that nodes are connected to has a node, if need
be a made up one, and the nodes that are connected to it are its outputs. -/
theorem foldlM_connect {cs : List (ℤ × ℤ)}
    (h : cs.foldlM (fun ci c => connect c.1 ci c.2) ci = some ci') (k : ℤ) :
    ci'.nodes.lookup k =
      ((ci.nodes.lookup k).or (if k ∈ cs.map Prod.snd then madeUp k else none)).map fun n =>
        { n with outputs := n.outputs ++ (cs.filter fun c => c.2 = k).map Prod.fst } := by
  induction cs using List.reverseRecOn generalizing ci' with
  | nil =>
      obtain rfl := Option.some.inj h
      simp
  | append_singleton cs c ih =>
      rw [List.foldlM_append] at h
      obtain ⟨ci₁, h₁, h⟩ := Option.bind_eq_some_iff.mp h
      obtain ⟨ci₂, hc, h⟩ := Option.bind_eq_some_iff.mp h
      obtain rfl := Option.some.inj h
      obtain ⟨i, hi, hlookup⟩ := connect_lookup hc
      rw [hlookup, List.filter_append, List.map_append]
      by_cases hk : k = c.2
      · subst hk
        rw [if_pos rfl, if_pos (by simp), List.filter_singleton, decide_eq_true rfl]
        rw [ih h₁] at hi
        cases hn : ci.nodes.lookup c.2 with
        | some n =>
            rw [hn] at hi
            obtain rfl := Option.some.inj hi
            rw [Option.some_or, Option.map_some, List.append_assoc]
            rfl
        | none =>
            rw [hn, Option.none_or] at hi
            rw [Option.none_or]
            by_cases hmem : c.2 ∈ cs.map Prod.snd
            · rw [if_pos hmem] at hi
              cases hm : madeUp c.2 with
              | none => rw [hm] at hi; exact nomatch hi
              | some m =>
                  rw [hm] at hi
                  obtain rfl := Option.some.inj hi
                  rw [Option.map_some, List.append_assoc]
                  rfl
            · -- the node is made up for this connection
              rw [if_neg hmem, Option.map_none, Option.none_or] at hi
              have hnone : cs.filter (fun c' => decide (c'.2 = c.2)) = [] := by
                rw [List.filter_eq_nil_iff]
                intro c' hc' heq
                exact hmem (List.mem_map.mpr ⟨c', hc', of_decide_eq_true heq⟩)
              rw [hi, hnone]
              rfl
      · have hmem : k ∈ (cs ++ [c]).map Prod.snd ↔ k ∈ cs.map Prod.snd := by
          rw [List.map_append, List.mem_append, List.map_singleton, List.mem_singleton,
            or_iff_left hk]
        rw [if_neg hk, ih h₁, List.filter_singleton, decide_eq_false (Ne.symm hk), cond_false,
          List.map_nil, List.append_nil]
        simp only [hmem]

theorem foldlM_connect_isSome {cs : List (ℤ × ℤ)}
    (h : cs.foldlM (fun ci c => connect c.1 ci c.2) ci = some ci') :
    ∀ c ∈ cs, (ci'.nodes.lookup c.2).isSome := by
  induction cs using List.reverseRecOn generalizing ci' with
  | nil => exact fun _ h => nomatch h
  | append_singleton cs c ih =>
      rw [List.foldlM_append] at h
      obtain ⟨ci₁, h₁, h⟩ := Option.bind_eq_some_iff.mp h
      obtain ⟨ci₂, hc, h⟩ := Option.bind_eq_some_iff.mp h
      obtain rfl := Option.some.inj h
      obtain ⟨i, -, hlookup⟩ := connect_lookup hc
      intro d hd
      rw [hlookup]
      split
      · rfl
      · next hne =>
        rcases List.mem_append.mp hd with hd | hd
        · exact ih h₁ d hd
        · exact absurd (congrArg Prod.snd (List.mem_singleton.mp hd)) hne

/-- A connection to a number that is not negative is added. -/
theorem exists_connect {input : ℤ} (h : 0 ≤ input) (nid : ℤ) (ci : CodecInfo) :
    ∃ ci', connect nid ci input = some ci' := by
  obtain ⟨k, rfl⟩ := Int.eq_ofNat_of_zero_le h
  obtain ⟨n, hn, -⟩ := madeUp_natCast k
  have hnode : ((ci.getNode k).map Prod.snd).isSome := by
    rw [getNode_eq, hn]
    cases ci.nodes.lookup (k : ℤ) <;> rfl
  rw [Option.isSome_map] at hnode
  obtain ⟨found, hfound⟩ := Option.isSome_iff_exists.mp hnode
  rw [connect, hfound]
  exact ⟨_, rfl⟩

theorem exists_foldlM_connect {cs : List (ℤ × ℤ)} (h : ∀ c ∈ cs, 0 ≤ c.2) (ci : CodecInfo) :
    ∃ ci', cs.foldlM (fun ci c => connect c.1 ci c.2) ci = some ci' := by
  induction cs generalizing ci with
  | nil => exact ⟨ci, rfl⟩
  | cons c cs ih =>
      obtain ⟨hc, hcs⟩ := List.forall_mem_cons.mp h
      obtain ⟨ci₁, h₁⟩ := exists_connect hc c.1 ci
      obtain ⟨ci', h'⟩ := ih hcs ci₁
      exact ⟨ci', by rw [List.foldlM_cons, h₁]; exact h'⟩

/-! ### The codec as it is drawn -/

theorem mem_values {n : Node} : n ∈ ci.values o ↔ ∃ k, ci.nodes.lookup k = some n := by
  rw [values, (o.perm _).mem_iff, List.mem_map]
  constructor
  · rintro ⟨⟨k, m⟩, hmem, rfl⟩
    exact ⟨k, AList.mem_lookup_iff.mpr hmem⟩
  · rintro ⟨k, hk⟩
    exact ⟨⟨k, n⟩, AList.mem_lookup_iff.mp hk, rfl⟩

/-- Nodes as they come from the dump: kept by their numbers, and without outputs. -/
def Fresh (ci : CodecInfo) : Prop :=
  ∀ k n, ci.nodes.lookup k = some n → n.nid = k ∧ 0 ≤ k ∧ n.outputs = []

theorem fresh_empty : Fresh {} :=
  fun k _ hk => absurd ((AList.lookup_empty k).symm.trans hk) (by simp)

theorem readItem_fresh (hci : ci.Fresh) {entry : Str × Outline Str}
    (h : readItem ci entry = some ci') : ci'.Fresh := by
  unfold readItem at h
  split at h
  · obtain ⟨n, hn, rfl⟩ := Option.map_eq_some_iff.mp h
    obtain ⟨hhead, houtputs, -⟩ := Node.init_spec hn
    intro k m hk
    by_cases hkn : k = n.nid
    · rw [hkn, AList.lookup_insert] at hk
      obtain rfl := Option.some.inj hk
      exact ⟨hkn.symm, hkn ▸ NodeHead.init_nid hhead, houtputs⟩
    · rw [AList.lookup_insert_ne hkn] at hk
      exact hci k m hk
  · exact Option.some.inj h ▸ hci

theorem foldlM_readItem_fresh {entries : List (Str × Outline Str)} (hci : ci.Fresh)
    (h : entries.foldlM readItem ci = some ci') : ci'.Fresh := by
  induction entries generalizing ci with
  | nil => exact Option.some.inj h ▸ hci
  | cons entry entries ih =>
      obtain ⟨ci₁, h₁, h⟩ := Option.bind_eq_some_iff.mp h
      exact ih (readItem_fresh hci h₁) h

/-- A codec where every connection leads to a node, and every node knows what is connected to it. -/
structure Wired (ci : CodecInfo) : Prop where
  nid_eq : ∀ k n, ci.nodes.lookup k = some n → n.nid = k
  nonneg : ∀ k n, ci.nodes.lookup k = some n → 0 ≤ k
  closed : ∀ k n, ci.nodes.lookup k = some n → ∀ c ∈ n.inputs, ∃ m, ci.nodes.lookup c = some m
  outputs_iff : ∀ k n, ci.nodes.lookup k = some n → ∀ m,
    m ∈ n.outputs ↔ ∃ n', ci.nodes.lookup m = some n' ∧ k ∈ n'.inputs

theorem mem_connections (hci : ci.Fresh) {m k : ℤ} :
    (m, k) ∈ connections (ci.values o) ↔ ∃ n, ci.nodes.lookup m = some n ∧ k ∈ n.inputs := by
  simp only [connections, List.mem_flatMap, List.mem_map, mem_values, Prod.mk.injEq]
  constructor
  · rintro ⟨n, ⟨k', hn⟩, _, hk, rfl, rfl⟩
    exact ⟨n, (hci k' n hn).1 ▸ hn, hk⟩
  · rintro ⟨n, hn, hk⟩
    exact ⟨n, ⟨m, hn⟩, k, hk, (hci m n hn).1, rfl⟩

/-- **The script wires the codec.** -/
theorem init_wired {lines : List Str} (h : init o lines = some ci) : ci.Wired := by
  obtain ⟨ci₀, hread, hcreate⟩ := Option.bind_eq_some_iff.mp h
  have hfresh : ci₀.Fresh := foldlM_readItem_fresh fresh_empty hread
  rw [createOutLists, foldlM_connectAll] at hcreate
  have hlookup := foldlM_connect hcreate
  -- a node of the codec is one of the dump or made up, with its outputs
  have hnode : ∀ k n, ci.nodes.lookup k = some n → n.nid = k ∧ 0 ≤ k ∧
      (n.inputs = [] ∨ ∃ n₀, ci₀.nodes.lookup k = some n₀ ∧ n.inputs = n₀.inputs) ∧
      n.outputs = ((connections (ci₀.values o)).filter fun c => c.2 = k).map Prod.fst := by
    intro k n hn
    rw [hlookup] at hn
    obtain ⟨n₀, hn₀, rfl⟩ := Option.map_eq_some_iff.mp hn
    rcases Option.or_eq_some_iff.mp hn₀ with hdump | ⟨-, hmade⟩
    · obtain ⟨hnid, hk, hout⟩ := hfresh k n₀ hdump
      exact ⟨hnid, hk, Or.inr ⟨n₀, hdump, rfl⟩, by rw [hout, List.nil_append]⟩
    · split at hmade
      · obtain ⟨hk, hspec⟩ := madeUp_spec hmade
        exact ⟨hspec.nid_eq, hk, Or.inl hspec.inputs_eq,
          by rw [hspec.outputs_eq, List.nil_append]⟩
      · exact nomatch hmade
  have hinputs : ∀ m k, (∃ n, ci.nodes.lookup m = some n ∧ k ∈ n.inputs) ↔
      (m, k) ∈ connections (ci₀.values o) := by
    intro m k
    rw [mem_connections hfresh]
    constructor
    · rintro ⟨n, hn, hk⟩
      rcases (hnode m n hn).2.2.1 with hnil | ⟨n₀, hn₀, heq⟩
      · rw [hnil] at hk
        exact nomatch hk
      · exact ⟨n₀, hn₀, heq ▸ hk⟩
    · rintro ⟨n₀, hn₀, hk⟩
      have hn := hlookup m
      rw [hn₀, Option.some_or, Option.map_some] at hn
      exact ⟨_, hn, hk⟩
  refine ⟨fun k n hn => (hnode k n hn).1, fun k n hn => (hnode k n hn).2.1, ?_, ?_⟩
  · intro k n hn c hc
    have hmem := (hinputs k c).mp ⟨n, hn, hc⟩
    exact Option.isSome_iff_exists.mp (foldlM_connect_isSome hcreate (k, c) hmem)
  · intro k n hn m
    rw [(hnode k n hn).2.2.2, hinputs, List.mem_map]
    constructor
    · rintro ⟨⟨m', k'⟩, hmem, rfl⟩
      rw [List.mem_filter, decide_eq_true_eq] at hmem
      exact hmem.2 ▸ hmem.1
    · intro hmem
      exact ⟨(m, k), List.mem_filter.mpr ⟨hmem, decide_eq_true rfl⟩, rfl⟩

end CodecInfo

end AppleALC.HdaTools.Codecgraph
