import AppleALC.HdaTools.Convert

/-!
# What convert.sh writes

The codec replaces a configuration byte with every verb that writes it; the script joins the bytes.
So what it puts out writes the same bytes as its input exactly if the last byte written to each place
has all the bits of the ones before.

* `Holds` — the invariant of the loop over the input, with a step lemma for a verb (`Holds.addVerb`)
  and one for a character (`Holds.read`);
* `last_writes` — what the output writes to a place, joined from the input;
* `convert_keeps_writes_iff` — when that is what the input writes to it.
-/

namespace AppleALC.HdaTools

open HexWord IntegerLiteral PackedBytes WriteLog

/-! ### The invariant of the loop -/

/-- The byte of a place, as the script joins it. -/
def heldByte (verbs : List ℕ) (node k : ℕ) : Option ℕ :=
  joined (· ||| ·) (writesOf verbs) (node, k)

/-- The fill of a node whose bytes are there as the flags say. -/
def fillOf (flags : ℕ → Bool) : ℕ := pack (fun k => if flags k then 1 else 0) 4

/-- The state holds the bytes that these verbs write, joined, and the other verbs. -/
structure Holds (verbs : List ℕ) (s : ConvertState) : Prop where
  unknown : s.unknownVerbs = verbs.filter fun v => writeOf v = none
  value : ∀ node, (s.configDefault node).getD 0 =
    pack (fun k => (heldByte verbs node k).getD 0) 4
  fill : ∀ node, (s.configFill node).getD 0 = fillOf fun k => (heldByte verbs node k).isSome
  both : ∀ node, (s.configDefault node).isSome = (s.configFill node).isSome
  touched : ∀ node, s.configFill node = none ↔ ∀ k, heldByte verbs node k = none

variable {verbs : List ℕ} {s : ConvertState}

theorem writesOf_concat (v : ℕ) : writesOf (verbs ++ [v]) = writesOf verbs ++ (writeOf v).toList := by
  rw [writesOf, List.filterMap_append]
  cases h : writeOf v <;> simp [writesOf, h]

/-- A place after one more verb. -/
theorem heldByte_write {v node k p : ℕ} (h : writeOf v = some ((node, k), p)) (i j : ℕ) :
    heldByte (verbs ++ [v]) i j =
      if i = node ∧ j = k then some ((heldByte verbs node k).getD 0 ||| p) else heldByte verbs i j := by
  rw [heldByte, writesOf_concat, h, Option.toList_some, joined_concat]
  by_cases hij : i = node ∧ j = k
  · obtain ⟨rfl, rfl⟩ := hij
    rw [if_pos rfl, if_pos ⟨rfl, rfl⟩, heldByte]
    cases joined (· ||| ·) (writesOf verbs) (i, j) with
    | none => rw [Option.elim_none, Option.getD_none, Nat.zero_or]
    | some held => rfl
  · have hne : (node, k) ≠ (i, j) := fun heq => hij (by simpa [eq_comm] using heq)
    rw [if_neg hne, if_neg hij, heldByte]

theorem heldByte_other {v : ℕ} (h : writeOf v = none) (i j : ℕ) :
    heldByte (verbs ++ [v]) i j = heldByte verbs i j := by
  rw [heldByte, writesOf_concat, h, Option.toList_none, List.append_nil, heldByte]

/-- **Step lemma.**  One more verb. -/
theorem Holds.addVerb (h : Holds verbs s) (v : ℕ) :
    Holds (verbs ++ [v]) (HdaTools.addVerb v s) := by
  rcases addVerb_cases v s with ⟨hnone, heq⟩ | ⟨node, k, p, hwrite, -, hk, -, heq⟩
  · rw [heq]
    refine ⟨?_, fun node => ?_, fun node => ?_, h.both, fun node => ?_⟩
    · simp [addToUnknown, h.unknown, hnone]
    · simp only [heldByte_other hnone]
      exact h.value node
    · simp only [heldByte_other hnone]
      exact h.fill node
    · simp only [heldByte_other hnone]
      exact h.touched node
  · rw [heq]
    refine ⟨?_, fun i => ?_, fun i => ?_, fun i => ?_, fun i => ?_⟩
    · simp [addToArray, h.unknown, hwrite]
    · simp only [addToArray, heldByte_write hwrite]
      by_cases hi : i = node
      · subst hi
        rw [Function.update_self, Option.getD_some, h.value, pack_or hk]
        refine pack_congr fun j hj => ?_
        by_cases hjk : j = k
        · rw [hjk, Function.update_self, if_pos ⟨rfl, rfl⟩, Option.getD_some]
        · rw [Function.update_of_ne hjk, if_neg fun hand => hjk hand.2]
      · rw [Function.update_of_ne hi, h.value]
        refine pack_congr fun j hj => ?_
        rw [if_neg fun hand => hi hand.1]
    · simp only [addToArray, heldByte_write hwrite]
      by_cases hi : i = node
      · subst hi
        rw [Function.update_self, Option.getD_some, h.fill]
        simp only [fillOf]
        rw [pack_or hk]
        refine pack_congr fun j hj => ?_
        by_cases hjk : j = k
        · simp only [hjk, Function.update_self, true_and, if_true, Option.isSome_some]
          split <;> rfl
        · simp only [Function.update_of_ne hjk, hjk, and_false, if_false]
      · rw [Function.update_of_ne hi, h.fill]
        simp only [fillOf, hi, false_and, if_false]
    · simp only [addToArray]
      by_cases hi : i = node
      · rw [hi, Function.update_self, Function.update_self]
        rfl
      · rw [Function.update_of_ne hi, Function.update_of_ne hi]
        exact h.both i
    · simp only [addToArray, heldByte_write hwrite]
      by_cases hi : i = node
      · rw [hi, Function.update_self]
        refine iff_of_false (Option.some_ne_none _) fun hall => ?_
        have hk' := hall k
        rw [if_pos ⟨rfl, rfl⟩] at hk'
        exact absurd hk' (Option.some_ne_none _)
      · rw [Function.update_of_ne hi, h.touched]
        simp only [hi, false_and, if_false]

/-- **Run lemma.**  The text that is read from here on adds its verbs. -/
theorem Holds.read (h : Holds verbs s) (input : List Char) :
    Holds (verbs ++ verbsOf s.verb input) (input.foldl convertChar s) := by
  induction input generalizing verbs s with
  | nil =>
      rw [verbsOf, List.append_nil]
      exact h
  | cons ch input ih =>
      rw [List.foldl_cons, verbsOf]
      -- the digits so far do not matter to what is held
      have hverb : ∀ digits, Holds verbs { s with verb := digits } :=
        fun digits => ⟨h.unknown, h.value, h.fill, h.both, h.touched⟩
      by_cases hfull : (if isDigitIn 16 ch then s.verb ++ [ch] else s.verb).length = 8
      · have hstep := (hverb []).addVerb
          (valueIn 16 (if isDigitIn 16 ch then s.verb ++ [ch] else s.verb))
        have hrest := ih hstep
        rw [convertChar]
        simp only [if_pos hfull]
        rw [List.append_assoc, List.singleton_append] at hrest
        have hempty : (HdaTools.addVerb
            (valueIn 16 (if isDigitIn 16 ch then s.verb ++ [ch] else s.verb))
            { s with verb := [] }).verb = [] := by
          rcases addVerb_cases (valueIn 16 (if isDigitIn 16 ch then s.verb ++ [ch] else s.verb))
            { s with verb := [] } with ⟨-, heq⟩ | ⟨node, k, p, -, -, -, -, heq⟩
          · rw [heq]; rfl
          · rw [heq]; rfl
        rw [hempty] at hrest
        exact hrest
      · rw [convertChar]
        simp only [if_neg hfull]
        exact ih (hverb _)

theorem holds_convertInput (input : List Char) :
    Holds (verbsOf [] input) (convertInput input) := by
  have hstart : Holds [] {} := by
    have hnone : ∀ i j, heldByte [] i j = none := fun i j => rfl
    refine ⟨rfl, fun node => ?_, fun node => ?_, fun _ => rfl, fun node => ?_⟩
    · simp only [hnone]
      decide
    · simp only [hnone]
      decide
    · simp only [hnone, implies_true]
  exact hstart.read input

/-! ### The output -/

/-- What the flags of a node say about its fill. -/
theorem fillOf_spec (flags : ℕ → Bool) :
    (fillOf flags = allFilled ↔ ∀ k < 4, flags k = true) ∧
      ((fillOf flags &&& 0x01 ≠ 0) ↔ flags 0 = true) ∧
      ((fillOf flags &&& 0x0100 ≠ 0) ↔ flags 1 = true) ∧
      ((fillOf flags &&& 0x010000 ≠ 0) ↔ flags 2 = true) ∧
      ((fillOf flags &&& 0x01000000 ≠ 0) ↔ flags 3 = true) := by
  have hall : ∀ b0 b1 b2 b3 : Bool,
      let fill := (((0 ||| (if b0 then 1 else 0) <<< 0) ||| (if b1 then 1 else 0) <<< 8)
        ||| (if b2 then 1 else 0) <<< 16) ||| (if b3 then 1 else 0) <<< 24
      (fill = allFilled ↔ b0 = true ∧ b1 = true ∧ b2 = true ∧ b3 = true) ∧
        ((fill &&& 0x01 ≠ 0) ↔ b0 = true) ∧ ((fill &&& 0x0100 ≠ 0) ↔ b1 = true) ∧
        ((fill &&& 0x010000 ≠ 0) ↔ b2 = true) ∧ ((fill &&& 0x01000000 ≠ 0) ↔ b3 = true) := by
    decide
  obtain ⟨hfull, hbits⟩ := hall (flags 0) (flags 1) (flags 2) (flags 3)
  refine ⟨hfull.trans ?_, hbits⟩
  constructor
  · rintro ⟨h0, h1, h2, h3⟩ k hk
    have hk' : k = 0 ∨ k = 1 ∨ k = 2 ∨ k = 3 := by omega
    rcases hk' with rfl | rfl | rfl | rfl <;> assumption
  · intro h
    exact ⟨h 0 (by decide), h 1 (by decide), h 2 (by decide), h 3 (by decide)⟩

/-- A held byte is a byte. -/
theorem heldByte_lt (verbs : List ℕ) (node k : ℕ) : (heldByte verbs node k).getD 0 < 256 := by
  induction verbs using List.reverseRecOn with
  | nil => exact Nat.zero_lt_succ _
  | append_singleton verbs v ih =>
      rcases addVerb_cases v {} with ⟨hnone, -⟩ | ⟨i, j, p, hwrite, -, -, hp, -⟩
      · rw [heldByte_other hnone]
        exact ih
      · rw [heldByte_write hwrite]
        split
        · next h =>
          obtain ⟨rfl, rfl⟩ := h
          exact Nat.or_lt_two_pow (n := 8) ih hp
        · exact ih

/-- Only places of real nodes are written. -/
theorem heldByte_range {node k : ℕ} (h : heldByte verbs node k ≠ none) : node < 128 ∧ k < 4 := by
  induction verbs using List.reverseRecOn with
  | nil => exact absurd rfl h
  | append_singleton verbs v ih =>
      rcases addVerb_cases v {} with ⟨hnone, -⟩ | ⟨i, j, p, hwrite, hi, hj, -, -⟩
      · rw [heldByte_other hnone] at h
        exact ih h
      · rw [heldByte_write hwrite] at h
        split at h
        · next heq => exact ⟨heq.1 ▸ hi, heq.2 ▸ hj⟩
        · exact ih h

/-- The table entry of a node, as writes. -/
def ConvertState.tableWrites (s : ConvertState) (i : ℕ) : List ((ℕ × ℕ) × ℕ) :=
  if s.configFill i = some allFilled then
    (s.configDefault i).elim [] fun d => (List.range 4).map fun k => ((i, k), byteAt d k)
  else []

theorem writes_eq (s : ConvertState) :
    s.writes = (List.range 256).flatMap s.tableWrites ++
      ((List.range 256).flatMap (fun i => writesOf (s.incomplete i)) ++ writesOf s.unknownVerbs) := by
  have htable : s.configs.flatMap
      (fun entry => (List.range 4).map fun k => ((entry.1, k), byteAt entry.2 k)) =
        (List.range 256).flatMap s.tableWrites := by
    rw [ConvertState.configs]
    induction List.range 256 with
    | nil => rfl
    | cons i is ih =>
        rw [List.flatMap_cons, ConvertState.tableWrites, ← ih]
        by_cases hfill : s.configFill i = some allFilled
        · cases hdefault : s.configDefault i with
          | none => simp [hfill, hdefault]
          | some d => simp [hfill, hdefault]
        · simp [hfill]
  rw [ConvertState.writes, htable, ConvertState.otherVerbs, writesOf, List.filterMap_append,
    List.filterMap_flatMap]
  rfl

/-- The verbs of an incomplete node: one for each of its bytes. -/
theorem incomplete_eq (s : ConvertState) {i : ℕ} {flags : ℕ → Bool}
    (hfill : (s.configFill i).getD 0 = fillOf flags) (hpart : ¬∀ k < 4, flags k = true) :
    s.incomplete i = ((List.range 4).filter flags).map fun k =>
      configVerb i k ((s.configDefault i).getD 0) := by
  obtain ⟨hfull, h0, h1, h2, h3⟩ := fillOf_spec flags
  rw [← hfill] at hfull h0 h1 h2 h3
  unfold ConvertState.incomplete
  cases hs : s.configFill i with
  | none =>
      rw [hs, Option.getD_none] at h0 h1 h2 h3
      simp only [Nat.zero_and, ne_eq, not_true_eq_false, false_iff] at h0 h1 h2 h3
      have hnone : ∀ k ∈ List.range 4, ¬flags k = true := by
        intro k hk
        have hk' : k = 0 ∨ k = 1 ∨ k = 2 ∨ k = 3 := by
          rw [List.mem_range] at hk
          omega
        rcases hk' with rfl | rfl | rfl | rfl <;> assumption
      rw [List.filter_eq_nil_iff.mpr hnone]
      rfl
  | some fill =>
      rw [hs, Option.getD_some] at hfull h0 h1 h2 h3
      simp only [h0, h1, h2, h3, if_neg (mt hfull.mp hpart)]
      rw [show List.range 4 = [0, 1, 2, 3] by decide]
      simp only [List.filter_cons, List.filter_nil]
      split_ifs <;> rfl

/-- A complete node needs no verbs. -/
theorem incomplete_of_full (s : ConvertState) {i : ℕ} {flags : ℕ → Bool}
    (hfill : (s.configFill i).getD 0 = fillOf flags) (hfull : ∀ k < 4, flags k = true) :
    s.configFill i = some allFilled ∧ s.incomplete i = [] := by
  have hget := hfill.trans ((fillOf_spec _).1.mpr hfull)
  have hsome : s.configFill i = some allFilled := by
    cases hs : s.configFill i with
    | none => rw [hs] at hget; exact absurd hget (by decide)
    | some fill => rw [hs] at hget; exact congrArg some hget
  exact ⟨hsome, by simp only [ConvertState.incomplete, hsome, if_true]⟩

/-- They write the bytes that are there. -/
theorem writesOf_incomplete (s : ConvertState) {i : ℕ} {flags : ℕ → Bool}
    (hi : ∀ k, flags k = true → i < 128) (hfill : (s.configFill i).getD 0 = fillOf flags)
    (hpart : ¬∀ k < 4, flags k = true) :
    writesOf (s.incomplete i) = ((List.range 4).filter flags).map fun k =>
      ((i, k), byteAt ((s.configDefault i).getD 0) k) := by
  rw [incomplete_eq s hfill hpart, writesOf]
  have hfour : ∀ k ∈ (List.range 4).filter flags, i < 128 ∧ k < 4 := by
    intro k hk
    obtain ⟨hrange, hflag⟩ := List.mem_filter.mp hk
    exact ⟨hi k hflag, List.mem_range.mp hrange⟩
  generalize (List.range 4).filter flags = places at hfour ⊢
  induction places with
  | nil => rfl
  | cons k places ih =>
      obtain ⟨⟨hi, hk⟩, hplaces⟩ := List.forall_mem_cons.mp hfour
      rw [List.map_cons, List.filterMap_cons, writeOf_configVerb hi hk, List.map_cons]
      simp only [ih hplaces]

/-- Some of the four places of a node, each with a value. -/
theorem writesTo_places (i : ℕ) (f : ℕ → ℕ) (p : ℕ → Bool) (k : ℕ) :
    writesTo (((List.range 4).filter p).map fun k => ((i, k), f k)) (i, k) =
      if k < 4 ∧ p k = true then [f k] else [] := by
  have hnodup : ((((List.range 4).filter p).map fun k => ((i, k), f k)).map Prod.fst).Nodup := by
    rw [List.map_map]
    refine (List.nodup_range.filter p).map fun a b hab => ?_
    exact (Prod.mk.inj hab).2
  by_cases hp : k < 4 ∧ p k = true
  · rw [if_pos hp]
    refine writesTo_of_nodup hnodup (List.mem_map.mpr ⟨k, ?_, rfl⟩)
    exact List.mem_filter.mpr ⟨List.mem_range.mpr hp.1, hp.2⟩
  · rw [if_neg hp]
    refine List.map_eq_nil_iff.mpr (List.filter_eq_nil_iff.mpr fun w hw => ?_)
    obtain ⟨j, hj, rfl⟩ := List.mem_map.mp hw
    obtain ⟨hrange, hpj⟩ := List.mem_filter.mp hj
    simp only [Prod.mk.injEq, true_and, decide_eq_true_eq]
    rintro rfl
    exact hp ⟨List.mem_range.mp hrange, hpj⟩

/-- What the output writes to a place of a node. -/
theorem writesTo_node (h : Holds verbs s) (i k : ℕ) :
    writesTo (s.tableWrites i) (i, k) ++ writesTo (writesOf (s.incomplete i)) (i, k) =
      (heldByte verbs i k).toList := by
  have hbyte : k < 4 → byteAt ((s.configDefault i).getD 0) k = (heldByte verbs i k).getD 0 := by
    intro hk
    rw [h.value, byteAt_pack (heldByte_lt verbs i), if_pos hk]
  have hout : ¬k < 4 → heldByte verbs i k = none := by
    intro hk
    by_contra hne
    exact hk (heldByte_range hne).2
  by_cases hfull : ∀ k < 4, (heldByte verbs i k).isSome = true
  · obtain ⟨hfill, hincomplete⟩ := incomplete_of_full s (h.fill i) hfull
    obtain ⟨d, hd⟩ := Option.isSome_iff_exists.mp ((h.both i).trans (by rw [hfill]; rfl))
    have htable : s.tableWrites i =
        ((List.range 4).filter fun _ => true).map fun k => ((i, k), byteAt d k) := by
      rw [ConvertState.tableWrites, if_pos hfill, hd, List.filter_true]
      rfl
    rw [htable, hincomplete, writesTo_places]
    rw [hd, Option.getD_some] at hbyte
    by_cases hk : k < 4
    · obtain ⟨b, hb⟩ := Option.isSome_iff_exists.mp (hfull k hk)
      rw [if_pos ⟨hk, rfl⟩, hbyte hk, hb]
      rfl
    · rw [if_neg fun hand => hk hand.1, hout hk]
      rfl
  · have htable : s.tableWrites i = [] := by
      refine if_neg fun hfill => hfull ((fillOf_spec _).1.mp ?_)
      rw [← h.fill, hfill]
      rfl
    have hnode : ∀ k, (heldByte verbs i k).isSome = true → i < 128 :=
      fun k hk => (heldByte_range (Option.isSome_iff_ne_none.mp hk)).1
    rw [htable, writesOf_incomplete s hnode (h.fill i) hfull, writesTo_places]
    by_cases hk : k < 4
    · rw [hbyte hk]
      cases heldByte verbs i k <;> simp [hk, writesTo]
    · rw [if_neg fun hand => hk hand.1, hout hk]
      rfl

/-- The writes of a node are to its places. -/
theorem tableWrites_node (s : ConvertState) (i : ℕ) : ∀ w ∈ s.tableWrites i, w.1.1 = i := by
  intro w hw
  unfold ConvertState.tableWrites at hw
  split at hw
  · cases hd : s.configDefault i with
    | none => rw [hd] at hw; exact absurd hw List.not_mem_nil
    | some d =>
        rw [hd] at hw
        obtain ⟨k, -, rfl⟩ := List.mem_map.mp hw
        rfl
  · exact absurd hw List.not_mem_nil

/-- So are those of its verbs, and they are all configuration verbs. -/
theorem incomplete_node (h : Holds verbs s) (i : ℕ) :
    (∀ v ∈ s.incomplete i, writeOf v ≠ none) ∧ ∀ w ∈ writesOf (s.incomplete i), w.1.1 = i := by
  by_cases hfull : ∀ k < 4, (heldByte verbs i k).isSome = true
  · rw [(incomplete_of_full s (h.fill i) hfull).2]
    exact ⟨fun v hv => absurd hv List.not_mem_nil, fun w hw => absurd hw List.not_mem_nil⟩
  · have hnode : ∀ k, (heldByte verbs i k).isSome = true → i < 128 :=
      fun k hk => (heldByte_range (Option.isSome_iff_ne_none.mp hk)).1
    refine ⟨?_, ?_⟩
    · rw [incomplete_eq s (h.fill i) hfull]
      intro v hv
      obtain ⟨k, hk, rfl⟩ := List.mem_map.mp hv
      obtain ⟨hrange, hflag⟩ := List.mem_filter.mp hk
      rw [writeOf_configVerb (hnode k hflag) (List.mem_range.mp hrange)]
      exact Option.some_ne_none _
    · rw [writesOf_incomplete s hnode (h.fill i) hfull]
      intro w hw
      obtain ⟨k, -, rfl⟩ := List.mem_map.mp hw
      rfl

/-- **The output joins.**  A place gets from the output what the input writes to it, joined. -/
theorem last_writes (h : Holds verbs s) (i k : ℕ) :
    last s.writes (i, k) = heldByte verbs i k := by
  have hunknown : writesOf s.unknownVerbs = [] := by
    rw [h.unknown]
    refine List.filterMap_eq_nil_iff.mpr fun v hv => ?_
    simpa using (List.mem_filter.mp hv).2
  have hwrites : writesTo s.writes (i, k) = (heldByte verbs i k).toList := by
    rw [writes_eq, hunknown, List.append_nil, writesTo_append,
      writesTo_flatMap Prod.fst List.nodup_range fun j _ => tableWrites_node s j,
      writesTo_flatMap Prod.fst List.nodup_range fun j _ => (incomplete_node h j).2]
    by_cases hi : i ∈ List.range 256
    · rw [if_pos hi, if_pos hi]
      exact writesTo_node h i k
    · have hout : heldByte verbs i k = none := by
        by_contra hne
        have hlt := (heldByte_range hne).1
        exact hi (List.mem_range.mpr (by omega))
      rw [if_neg hi, if_neg hi, hout]
      rfl
  rw [last, hwrites]
  cases heldByte verbs i k <;> rfl

/-- The other verbs stay in their order. -/
theorem filter_otherVerbs (h : Holds verbs s) :
    (s.otherVerbs.filter fun v => writeOf v = none) = verbs.filter fun v => writeOf v = none := by
  have hnil : ((List.range 256).flatMap s.incomplete).filter (fun v => writeOf v = none) = [] := by
    refine List.filter_eq_nil_iff.mpr fun v hv => ?_
    obtain ⟨i, -, hv⟩ := List.mem_flatMap.mp hv
    simpa using (incomplete_node h i).1 v hv
  rw [ConvertState.otherVerbs, List.filter_append, hnil, List.nil_append, h.unknown,
    List.filter_filter]
  simp only [Bool.and_self]

/-- The fill is never what the script compares it with. -/
theorem fillOf_ne (flags : ℕ → Bool) : fillOf flags ≠ 0x1111 := by
  have hall : ∀ b0 b1 b2 b3 : Bool,
      (((0 ||| (if b0 then 1 else 0) <<< 0) ||| (if b1 then 1 else 0) <<< 8)
        ||| (if b2 then 1 else 0) <<< 16) ||| (if b3 then 1 else 0) <<< 24 ≠ 0x1111 := by decide
  exact hall (flags 0) (flags 1) (flags 2) (flags 3)

/-- The total counts every verb that was read, if not one by one. -/
theorem total_eq_zero_iff (h : Holds verbs s) : s.total = 0 ↔ verbs = [] := by
  have hfills : ((List.range 256).filter fun i =>
      (s.configFill i).any fun fill => fill ≠ 0x1111).length = 0 ↔
        ∀ i < 256, s.configFill i = none := by
    rw [List.length_eq_zero_iff, List.filter_eq_nil_iff]
    refine forall_congr' fun i => ?_
    rw [List.mem_range]
    refine imp_congr_right fun _ => ?_
    cases hfill : s.configFill i with
    | none => simp
    | some fill =>
        have hget := h.fill i
        rw [hfill, Option.getD_some] at hget
        simp [hget, fillOf_ne]
  rw [ConvertState.total, Nat.add_eq_zero_iff, hfills, List.length_eq_zero_iff, h.unknown]
  constructor
  · rintro ⟨hother, hnone⟩
    refine List.eq_nil_iff_forall_not_mem.mpr fun v hv => ?_
    rcases addVerb_cases v {} with ⟨hwrite, -⟩ | ⟨i, k, p, hwrite, hi, hk, -, -⟩
    · exact List.filter_eq_nil_iff.mp hother v hv (by simpa using hwrite)
    · -- its byte is held, so its node has a fill
      have hempty := (h.touched i).mp (hnone i (by omega)) k
      rw [heldByte, joined_eq_none_iff] at hempty
      exact hempty _ (List.mem_filterMap.mpr ⟨v, hv, hwrite⟩) rfl
  · rintro rfl
    exact ⟨rfl, fun i _ => (h.touched i).mpr fun k => rfl⟩

/-- **The conversion keeps the verbs** exactly where joining is overwriting.  The verbs of other kinds
are always kept, in their order; the output leaves every configuration byte as the input does if and
only if the last byte that the input writes to a place has all the bits of those before.  The total is
zero only if no verb is read, so other verbs are announced also where there are none. -/
theorem convert_keeps_writes_iff (input : List Char) :
    ((convertInput input).otherVerbs.filter fun v => writeOf v = none) =
        ((verbsOf [] input).filter fun v => writeOf v = none) ∧
      ((convertInput input).total = 0 ↔ verbsOf [] input = []) ∧
      ((∀ place, last (convertInput input).writes place = last (writesOf (verbsOf [] input)) place) ↔
        ∀ place p, last (writesOf (verbsOf [] input)) place = some p →
          ∀ q ∈ writesTo (writesOf (verbsOf [] input)) place, q ||| p = p) := by
  have h := holds_convertInput input
  refine ⟨filter_otherVerbs h, total_eq_zero_iff h, forall_congr' fun place => ?_⟩
  obtain ⟨i, k⟩ := place
  rw [last_writes h]
  exact joined_eq_last_iff Nat.or_assoc Nat.or_comm Nat.or_self _ (i, k)

end AppleALC.HdaTools
