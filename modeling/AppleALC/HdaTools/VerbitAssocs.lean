import AppleALC.HdaTools.Verbit

/-!
# The associations of verbit.sh

The loop over the associations keeps the first pin of every association and gives the others one that
no pin had.  There are fourteen to give, and a fifteenth one that is never given but may be there; so
every pin has an association of its own exactly as long as there are no more pins than these.

A pin of association zero counts as one of association one, but when it keeps its association it
keeps the zero.

* `correctAssocs_eq` — the loop is `Reassign.reassign` over the digits;
* `nverbcs_eq` — the corrected verbs by their new digits;
* `nverbcs_length_iff` — every corrected verb has eight digits as long as no pin goes without one;
* `nverbcs_distinct_iff` — these are different, and one of them may still be zero.
-/

namespace AppleALC.HdaTools

open HexWord IntegerLiteral ShellText Reassign

/-! ### One verb -/

/-- A verb with an association digit in its place. -/
def HasAssoc (verbc : Line) (c : Char) : Prop :=
  ∃ front d, verbc = front ++ [c, d] ∧ front.length = 6 ∧ isLowerHex c = true

/-- The association that counts for a digit. -/
def countedAssoc (c : Char) : Char := if c = '0' then '1' else c

theorem cutChars_assoc {front : Line} (hfront : front.length = 6) (c d : Char) :
    cutChars 7 7 (front ++ [c, d]) = [c] ∧ cutChars 1 6 (front ++ [c, d]) = front ∧
      cutChars 1 7 (front ++ [c, d]) = front ++ [c] := by
  refine ⟨?_, ?_, ?_⟩
  · simp [cutChars, hfront]
  · simp [cutChars, hfront]
  · simp [cutChars, List.take_append, hfront]

theorem assocOf_eq {verbc : Line} {c : Char} (h : HasAssoc verbc c) :
    assocOf verbc = [countedAssoc c] := by
  obtain ⟨front, d, rfl, hfront, -⟩ := h
  simp only [assocOf, (cutChars_assoc hfront c d).1, countedAssoc, List.cons.injEq, and_true]
  split <;> rfl

/-- The corrected verb of a pin that counts as `assoc` and ends up with `new`. -/
def correctedVerb (verbc : Line) (assoc : Char) (new : Option Char) : Line :=
  if new = some assoc then cutChars 1 7 verbc ++ ['0'] else cutChars 1 6 verbc ++ new.toList ++ ['0']

def correctedAssoc (c : Char) (new : Option Char) : Option Char :=
  if new = some (countedAssoc c) then some c else new

/-- The new association is in its place, and the sequence is zero. -/
theorem correctedVerb_eq {front : Line} (hfront : front.length = 6) (c d : Char) {new : Option Char}
    {a : Char} (h : correctedAssoc c new = some a) :
    correctedVerb (front ++ [c, d]) (countedAssoc c) new = front ++ [a, '0'] := by
  obtain ⟨-, h6, h7⟩ := cutChars_assoc hfront c d
  unfold correctedAssoc at h
  unfold correctedVerb
  split at h
  · next hkept =>
    rw [if_pos hkept, h7, Option.some.inj h, List.append_assoc]
    rfl
  · next hkept =>
    rw [if_neg hkept, h6, h, List.append_assoc]
    rfl

theorem correctedVerb_digit {verbc : Line} {c : Char} (h : HasAssoc verbc c) {new : Option Char}
    {a : Char} (ha : correctedAssoc c new = some a) :
    cutChars 7 7 (correctedVerb verbc (countedAssoc c) new) = [a] := by
  obtain ⟨front, d, rfl, hfront, -⟩ := h
  rw [correctedVerb_eq hfront c d ha]
  exact (cutChars_assoc hfront a '0').1

/-- A verb has eight digits after the correction, unless its pin has lost its association. -/
theorem correctedVerb_length {verbc : Line} {c : Char} (h : HasAssoc verbc c) (new : Option Char) :
    (correctedVerb verbc (countedAssoc c) new).length = 8 ↔ new ≠ none := by
  obtain ⟨front, d, rfl, hfront, -⟩ := h
  cases new with
  | none =>
      rw [correctedVerb, if_neg (by simp), (cutChars_assoc hfront c d).2.1]
      simp [hfront]
  | some x =>
      obtain ⟨a, ha⟩ : ∃ a, correctedAssoc c (some x) = some a := by
        unfold correctedAssoc
        split
        · exact ⟨c, rfl⟩
        · exact ⟨x, rfl⟩
      simp [correctedVerb_eq hfront c d ha, hfront]

/-! ### The loop -/

/-- **The loop gives duplicates unused associations.** -/
theorem correctAssocs_eq (unused : List Char) (rest : List (Line × Char)) {done : List Line}
    {seen : List Char} (hdone : ∀ r ∈ rest, [r.2] ∈ done ↔ r.2 ∈ seen)
    (hunused : ∀ r ∈ rest, r.2 ∉ unused) (next : ℕ) :
    correctAssocs (unused.map fun c => [c]) done next (rest.map fun r => (r.1, [r.2])) =
      List.zipWith (fun r new => correctedVerb r.1 r.2 new) rest
        (reassign (unused.drop next) seen (rest.map Prod.snd)) := by
  induction rest generalizing done seen next with
  | nil => rfl
  | cons r rest ih =>
      obtain ⟨hr, hrest⟩ := List.forall_mem_cons.mp hdone
      obtain ⟨hru, hrestu⟩ := List.forall_mem_cons.mp hunused
      have hword : ∀ ws : List Line, containsWord [r.2] ws = decide ([r.2] ∈ ws) := by
        intro ws
        simp [containsWord]
      rw [List.map_cons, List.map_cons, correctAssocs, reassign]
      simp only [hword, decide_eq_true_eq, List.mem_append]
      by_cases hseen : r.2 ∈ seen
      · rw [if_pos (Or.inl (hr.mpr hseen)), if_pos (hr.mpr hseen), if_pos hseen,
          List.zipWith_cons_cons, List.tail_drop]
        have hnew : ((unused.map fun c => [c])[next]?).getD [] = (unused.drop next).head?.toList := by
          rw [List.getElem?_map, List.head?_drop]
          cases unused[next]? <;> rfl
        have hne : (unused.drop next).head? ≠ some r.2 := fun h =>
          hru (List.mem_of_mem_drop (List.mem_of_mem_head? h))
        rw [hnew, correctedVerb, if_neg hne]
        congr 1
        refine ih (fun q hq => ?_) hrestu (next + 1)
        rw [List.mem_append, hrest q hq, List.mem_singleton, or_iff_left_iff_imp]
        -- what was given away is no association of the others
        intro h
        cases hhead : (unused.drop next).head? with
        | none => rw [hhead] at h; exact absurd h (by simp)
        | some x =>
            rw [hhead, Option.toList_some, List.cons.injEq] at h
            exact absurd (h.1 ▸ List.mem_of_mem_drop (List.mem_of_mem_head? hhead)) (hrestu q hq)
      · have hnot : [r.2] ∉ done := mt hr.mp hseen
        rw [if_neg hseen, List.zipWith_cons_cons, correctedVerb, if_pos rfl]
        have hdone' : ∀ q ∈ rest, [q.2] ∈ done ++ [[r.2]] ↔ q.2 ∈ r.2 :: seen := by
          intro q hq
          rw [List.mem_append, List.mem_singleton, List.mem_cons, hrest q hq, List.cons.injEq,
            or_comm]
          simp
        have hstep := ih hdone' hrestu next
        by_cases hlater : [r.2] ∈ done ∨ [r.2] ∈ (rest.map fun r => (r.1, [r.2])).map Prod.snd
        · rw [if_pos hlater, if_neg hnot, hstep]
        · rw [if_neg hlater, hstep]

/-! ### The unused associations -/

/-- The associations that can be given. -/
def givenAssocs : List Char := (List.range 14).map fun i => HexWord.digitChar (i + 1)

def unusedChars (assocs : List Char) : List Char := givenAssocs.filter (· ∉ assocs)

theorem unusedAssocs_eq (assocs : List Char) :
    unusedAssocs (assocs.map fun c => [c]) = (unusedChars assocs).map fun c => [c] := by
  have hmap : (List.range 14).map (fun i => [HexWord.digitChar (i + 1)]) =
      givenAssocs.map fun c => [c] := by
    rw [givenAssocs, List.map_map]
    rfl
  have hword : ∀ c, containsWord [c] (assocs.map fun c => [c]) = true ↔ c ∈ assocs := by
    intro c
    rw [containsWord, decide_eq_true_eq]
    simp
  rw [unusedAssocs, hmap, unusedChars, List.filter_map]
  congr 1
  refine List.filter_congr fun c _ => ?_
  by_cases hc : c ∈ assocs
  · rw [Function.comp_apply, (hword c).mpr hc, decide_eq_false (not_not_intro hc)]
    rfl
  · rw [Function.comp_apply, Bool.eq_false_of_not_eq_true (mt (hword c).mp hc), decide_eq_true hc]
    rfl

/-- No association is left for a pin that counts as one that is given. -/
theorem notMem_unusedChars {assocs : List Char} {c : Char} (h : c ∈ assocs) :
    c ∉ unusedChars assocs := by
  intro hmem
  have hnot := (List.mem_filter.mp hmem).2
  simp only [decide_eq_true_eq] at hnot
  exact hnot h

/-- A pin counts as one of the associations that can be given, or as the fifteenth. -/
theorem countedAssoc_mem {c : Char} (h : isLowerHex c = true) :
    countedAssoc c ∈ givenAssocs ∨ countedAssoc c = 'f' := by
  have hall : "0123456789abcdef".toList.all fun c =>
      decide (countedAssoc c ∈ givenAssocs ∨ countedAssoc c = 'f') := by decide
  exact of_decide_eq_true (List.all_eq_true.mp hall c (List.contains_iff_mem.mp h))

/-- There are as many associations as fourteen, and one more if it is there. -/
theorem card_assocs {assocs : List Char} (h : ∀ a ∈ assocs, a ∈ givenAssocs ∨ a = 'f') :
    (unusedChars assocs).length + assocs.toFinset.card = if 'f' ∈ assocs then 15 else 14 := by
  have hpool : (givenAssocs.filter (· ∈ assocs)).length + (unusedChars assocs).length = 14 := by
    rw [unusedChars, show 14 = givenAssocs.length by decide,
      List.length_eq_length_filter_add (l := givenAssocs) (· ∈ assocs)]
    simp
  have hnodup : givenAssocs.Nodup := by decide
  have hused : (givenAssocs.filter (· ∈ assocs)).length =
      (assocs.toFinset.filter (· ∈ givenAssocs)).card := by
    rw [← List.toFinset_card_of_nodup (hnodup.filter _)]
    congr 1
    ext c
    simp [and_comm]
  have hother : (assocs.toFinset.filter (· ∉ givenAssocs)).card = if 'f' ∈ assocs then 1 else 0 := by
    have hf : 'f' ∉ givenAssocs := by decide
    by_cases hmem : 'f' ∈ assocs
    · rw [if_pos hmem, Finset.card_eq_one]
      refine ⟨'f', ?_⟩
      ext c
      rw [Finset.mem_filter, List.mem_toFinset, Finset.mem_singleton]
      constructor
      · exact fun hc => (h c hc.1).resolve_left hc.2
      · rintro rfl
        exact ⟨hmem, hf⟩
    · rw [if_neg hmem, Finset.card_eq_zero, Finset.filter_eq_empty_iff]
      intro c hc hgiven
      rw [List.mem_toFinset] at hc
      exact hmem ((h c hc).resolve_left hgiven ▸ hc)
  have hsplit := Finset.card_filter_add_card_filter_not (s := assocs.toFinset) (· ∈ givenAssocs)
  split at hother
  · next hmem => rw [if_pos hmem]; omega
  · next hmem => rw [if_neg hmem]; omega

/-! ### All verbs -/

/-- The association digit of a verb. -/
def assocDigit (verbc : Line) : Char := (verbc[6]?).getD '0'

/-- A verb of eight digits. -/
def ValidVerb (verbc : Line) : Prop := verbc.length = 8 ∧ isLowerHex (assocDigit verbc) = true

theorem ValidVerb.hasAssoc {verbc : Line} (h : ValidVerb verbc) :
    HasAssoc verbc (assocDigit verbc) := by
  obtain ⟨hlength, hdigit⟩ := h
  refine ⟨verbc.take 6, verbc[7], ?_, by rw [List.length_take]; omega, hdigit⟩
  have hdrop : verbc.drop 6 = [verbc[6], verbc[7]] := by
    rw [List.drop_eq_getElem_cons (by omega), List.drop_eq_getElem_cons (by omega),
      List.drop_eq_nil_of_le (by omega)]
  have hget : assocDigit verbc = verbc[6] := by
    rw [assocDigit, List.getElem?_eq_getElem (by omega)]
    rfl
  rw [hget, ← hdrop, List.take_append_drop]

theorem countedAssoc_ne_zero (c : Char) : countedAssoc c ≠ '0' := by
  unfold countedAssoc
  split
  · decide
  · assumption

section Verbs

variable {verbcs : List Line}

/-- What the pins count as. -/
def countedAssocs (verbcs : List Line) : List Char :=
  verbcs.map fun verbc => countedAssoc (assocDigit verbc)

/-- What the pins end up with. -/
def newAssocs (verbcs : List Line) : List (Option Char) :=
  reassign (unusedChars (countedAssocs verbcs)) [] (countedAssocs verbcs)

/-- **The corrected verbs.** -/
theorem nverbcs_eq (hvalid : ∀ verbc ∈ verbcs, ValidVerb verbc) :
    nverbcs verbcs = List.zipWith
      (fun verbc new => correctedVerb verbc (countedAssoc (assocDigit verbc)) new) verbcs
      (newAssocs verbcs) := by
  have hassocs : verbcs.map assocOf = (countedAssocs verbcs).map fun c => [c] := by
    rw [countedAssocs, List.map_map]
    exact List.map_congr_left fun verbc hverbc => assocOf_eq (hvalid verbc hverbc).hasAssoc
  have hzip : verbcs.zip (verbcs.map assocOf) =
      (verbcs.map fun verbc => (verbc, countedAssoc (assocDigit verbc))).map
        fun r => (r.1, [r.2]) := by
    have hpairs : (verbcs.map id).zip (verbcs.map assocOf) =
        verbcs.map fun verbc => (verbc, assocOf verbc) := List.zip_map'
    rw [List.map_id] at hpairs
    rw [hpairs, List.map_map]
    refine List.map_congr_left fun verbc hverbc => ?_
    rw [assocOf_eq (hvalid verbc hverbc).hasAssoc]
    rfl
  have hunused : ∀ r ∈ verbcs.map fun verbc => (verbc, countedAssoc (assocDigit verbc)),
      r.2 ∉ unusedChars (countedAssocs verbcs) := by
    intro r hr
    obtain ⟨verbc, hverbc, rfl⟩ := List.mem_map.mp hr
    exact notMem_unusedChars (List.mem_map.mpr ⟨verbc, hverbc, rfl⟩)
  have hdone : ∀ r ∈ verbcs.map fun verbc => (verbc, countedAssoc (assocDigit verbc)),
      [r.2] ∈ ([] : List Line) ↔ r.2 ∈ ([] : List Char) := fun r _ => by simp
  rw [nverbcs, hzip, hassocs, unusedAssocs_eq,
    correctAssocs_eq (unusedChars (countedAssocs verbcs)) _ hdone hunused 0,
    List.drop_zero, List.map_map, List.zipWith_map_left]
  rfl

theorem newAssocs_length (verbcs : List Line) : (newAssocs verbcs).length = verbcs.length := by
  rw [newAssocs, length_reassign, countedAssocs, List.length_map]

/-- No pin ends up with a zero that it did not have. -/
theorem newAssocs_ne_zero (verbcs : List Line) : some '0' ∉ newAssocs verbcs := by
  intro h
  rcases mem_reassign h with hspare | ⟨hmem, -⟩
  · have hgiven := List.mem_of_mem_filter hspare
    exact absurd hgiven (by decide)
  · obtain ⟨verbc, -, hzero⟩ := List.mem_map.mp hmem
    exact countedAssoc_ne_zero _ hzero

/-- All verbs have eight digits as long as no pin has lost its association. -/
theorem nverbcs_length_iff (hvalid : ∀ verbc ∈ verbcs, ValidVerb verbc) :
    (∀ nverbc ∈ nverbcs verbcs, nverbc.length = 8) ↔ none ∉ newAssocs verbcs := by
  rw [nverbcs_eq hvalid]
  have hlength := newAssocs_length verbcs
  generalize newAssocs verbcs = news at hlength ⊢
  induction verbcs generalizing news with
  | nil =>
      rw [List.length_nil, List.length_eq_zero_iff] at hlength
      simp [hlength]
  | cons verbc verbcs ih =>
      cases news with
      | nil => exact absurd hlength nofun
      | cons new news =>
          obtain ⟨hverbc, hrest⟩ := List.forall_mem_cons.mp hvalid
          have hlast := ih hrest news (by simpa using hlength)
          rw [List.zipWith_cons_cons, List.forall_mem_cons, List.mem_cons, not_or,
            correctedVerb_length hverbc.hasAssoc new]
          exact and_congr ne_comm hlast

def newDigits (verbcs : List Line) : List (Option Char) :=
  List.zipWith correctedAssoc (verbcs.map assocDigit) (newAssocs verbcs)

/-- A pin that has not lost its association has a digit for it. -/
theorem correctedAssoc_ne_none {new : Option Char} (h : new ≠ none) (c : Char) :
    correctedAssoc c new ≠ none := by
  unfold correctedAssoc
  split
  · exact Option.some_ne_none c
  · exact h

theorem nverbcs_digits (hvalid : ∀ verbc ∈ verbcs, ValidVerb verbc)
    (hall : none ∉ newAssocs verbcs) :
    (nverbcs verbcs).map (cutChars 7 7) = (newDigits verbcs).map Option.toList := by
  rw [nverbcs_eq hvalid, newDigits, List.map_zipWith, List.map_zipWith, List.zipWith_map_left]
  generalize newAssocs verbcs = news at hall ⊢
  induction verbcs generalizing news with
  | nil => rfl
  | cons verbc verbcs ih =>
      cases news with
      | nil => rfl
      | cons new news =>
          obtain ⟨hverbc, hrest⟩ := List.forall_mem_cons.mp hvalid
          rw [List.mem_cons, not_or] at hall
          rw [List.zipWith_cons_cons, List.zipWith_cons_cons, ih hrest news hall.2]
          congr 1
          obtain ⟨a, ha⟩ := Option.ne_none_iff_exists'.mp
            (correctedAssoc_ne_none (ne_comm.mp hall.1) (assocDigit verbc))
          rw [ha, correctedVerb_digit hverbc.hasAssoc ha]
          rfl

/-- Counting the digits gives the new associations back. -/
theorem map_countedAssoc {cs : List Char} {news : List (Option Char)} (hlength : news.length = cs.length)
    (hzero : some '0' ∉ news) :
    (List.zipWith correctedAssoc cs news).map (Option.map countedAssoc) = news := by
  induction cs generalizing news with
  | nil =>
      rw [List.length_nil, List.length_eq_zero_iff] at hlength
      rw [hlength]
      rfl
  | cons c cs ih =>
      cases news with
      | nil => exact absurd hlength nofun
      | cons new news =>
          rw [List.mem_cons, not_or] at hzero
          rw [List.zipWith_cons_cons, List.map_cons, ih (by simpa using hlength) hzero.2]
          congr 1
          unfold correctedAssoc
          split
          · next hkept => exact hkept.symm
          · cases new with
            | none => rfl
            | some x =>
                have hx : x ≠ '0' := fun h => hzero.1 (h ▸ rfl)
                rw [Option.map_some, countedAssoc, if_neg hx]

/-- Which pin keeps a zero. -/
theorem zero_mem_iff (cs seen : List Char) {spare : List Char} (hspare : '0' ∉ spare)
    (hnew : ∀ c ∈ cs, countedAssoc c ∉ spare) :
    some '0' ∈ List.zipWith correctedAssoc cs (reassign spare seen (cs.map countedAssoc)) ↔
      '1' ∉ seen ∧ (cs.find? fun c => c = '0' ∨ c = '1') = some '0' := by
  have hone : ∀ c, countedAssoc c = '1' ↔ c = '0' ∨ c = '1' := by
    intro c
    unfold countedAssoc
    split
    · next h => simp [h]
    · next h => simp [h]
  induction cs generalizing spare seen with
  | nil => simp
  | cons c cs ih =>
      obtain ⟨hc, hcs⟩ := List.forall_mem_cons.mp hnew
      rw [List.map_cons, reassign]
      by_cases hseen : countedAssoc c ∈ seen
      · have htail : '0' ∉ spare.tail := mt List.mem_of_mem_tail hspare
        have hcs' : ∀ c ∈ cs, countedAssoc c ∉ spare.tail :=
          fun c hmem => mt List.mem_of_mem_tail (hcs c hmem)
        have hne : spare.head? ≠ some (countedAssoc c) := fun h => hc (List.mem_of_mem_head? h)
        have hzero : ¬some '0' = spare.head? := fun h => hspare (List.mem_of_mem_head? h.symm)
        have hrest : some '0' ∈ List.zipWith correctedAssoc cs
            (reassign spare.tail seen (cs.map countedAssoc)) ↔ _ := ih seen htail hcs'
        rw [if_pos hseen, List.zipWith_cons_cons, correctedAssoc, if_neg hne, List.mem_cons,
          or_iff_right hzero, hrest, and_congr_right_iff]
        intro hunseen
        rw [List.find?_cons_of_neg]
        intro h
        rw [decide_eq_true_eq, ← hone] at h
        exact hunseen (h ▸ hseen)
      · have hrest : some '0' ∈ List.zipWith correctedAssoc cs
            (reassign spare (countedAssoc c :: seen) (cs.map countedAssoc)) ↔ _ :=
          ih (countedAssoc c :: seen) hspare hcs
        rw [if_neg hseen, List.zipWith_cons_cons, correctedAssoc, if_pos rfl, List.mem_cons, hrest,
          List.mem_cons, not_or]
        by_cases hc1 : countedAssoc c = '1'
        · rw [List.find?_cons_of_pos (by simpa using (hone c).mp hc1)]
          rw [hc1] at hseen
          simp [hc1, hseen, eq_comm]
        · have hcz : ¬some '0' = some c := by
            intro h
            exact hc1 ((hone c).mpr (Or.inl (Option.some.inj h).symm))
          rw [or_iff_right hcz, List.find?_cons_of_neg (by simpa using mt (hone c).mpr hc1)]
          simp [ne_comm.mp hc1]

/-- No pin loses its association as long as there are enough of them. -/
theorem none_notMem_newAssocs_iff (hvalid : ∀ verbc ∈ verbcs, ValidVerb verbc) :
    none ∉ newAssocs verbcs ↔
      verbcs.length ≤ if 'f' ∈ verbcs.map assocDigit then 15 else 14 := by
  have hcounted : ∀ a ∈ countedAssocs verbcs, a ∈ givenAssocs ∨ a = 'f' := by
    intro a ha
    obtain ⟨verbc, hverbc, rfl⟩ := List.mem_map.mp ha
    exact countedAssoc_mem (hvalid verbc hverbc).2
  have hf : 'f' ∈ countedAssocs verbcs ↔ 'f' ∈ verbcs.map assocDigit := by
    have hone : ∀ c, countedAssoc c = 'f' ↔ c = 'f' := by
      intro c
      unfold countedAssoc
      split
      · next h => simp [h]
      · rfl
    simp only [countedAssocs, List.mem_map, hone]
  have hcard := card_assocs hcounted
  simp only [hf] at hcard
  rw [newAssocs, none_notMem_reassign_iff, List.toFinset_nil, Finset.sdiff_empty, hcard,
    countedAssocs, List.length_map]

/-- No digit comes twice. -/
theorem nodup_newDigits (hall : none ∉ newAssocs verbcs) : (newDigits verbcs).Nodup := by
  have hspare : (unusedChars (countedAssocs verbcs)).Nodup := by
    have hgiven : givenAssocs.Nodup := by decide
    exact hgiven.filter _
  have hnodup : (newAssocs verbcs).Nodup :=
    nodup_reassign hspare (fun x hx hmem => notMem_unusedChars hmem hx) hall
  refine List.Nodup.of_map (Option.map countedAssoc) ?_
  rw [newDigits, map_countedAssoc (by rw [newAssocs_length, List.length_map])
    (newAssocs_ne_zero verbcs)]
  exact hnodup

/-- Every digit is a hexadecimal one. -/
theorem newDigits_lower (hvalid : ∀ verbc ∈ verbcs, ValidVerb verbc) {a : Char}
    (ha : some a ∈ newDigits verbcs) : isLowerHex a = true := by
  have hgiven : ∀ a ∈ givenAssocs, isLowerHex a = true := List.all_eq_true.mp (by decide)
  obtain ⟨i, hi, hget⟩ := List.mem_iff_getElem.mp ha
  simp only [newDigits, List.getElem_zipWith, List.getElem_map, correctedAssoc] at hget
  split at hget
  · rw [← Option.some.inj hget]
    exact (hvalid _ (List.getElem_mem _)).2
  · have hmem : some a ∈ newAssocs verbcs := hget ▸ List.getElem_mem _
    rcases mem_reassign hmem with hspare | ⟨hcounted, -⟩
    · exact hgiven a (List.mem_of_mem_filter hspare)
    · obtain ⟨verbc, hverbc, rfl⟩ := List.mem_map.mp hcounted
      rcases countedAssoc_mem (hvalid verbc hverbc).2 with h | h
      · exact hgiven _ h
      · rw [h]
        decide

/-- **Associations of their own.**  Every corrected verb has its eight digits exactly as long as there
are no more than fourteen pins, or fifteen if one of them has the association `f`, which is never
given.  Then the associations are pairwise different.  One of them is zero exactly if the first pin of
association zero or one has the association zero. -/
theorem nverbcs_distinct_iff (hvalid : ∀ verbc ∈ verbcs, ValidVerb verbc) :
    ((∀ nverbc ∈ nverbcs verbcs, nverbc.length = 8) ↔
        verbcs.length ≤ if 'f' ∈ verbcs.map assocDigit then 15 else 14) ∧
      ((∀ nverbc ∈ nverbcs verbcs, nverbc.length = 8) →
        ((nverbcs verbcs).map (cutChars 7 7)).Nodup ∧
          (['0'] ∈ (nverbcs verbcs).map (cutChars 7 7) ↔
            ((verbcs.map assocDigit).find? fun c => c = '0' ∨ c = '1') = some '0')) := by
  refine ⟨(nverbcs_length_iff hvalid).trans (none_notMem_newAssocs_iff hvalid), fun hlength => ?_⟩
  have hall := (nverbcs_length_iff hvalid).mp hlength
  have hdigits := nverbcs_digits hvalid hall
  have hinj : Function.Injective (Option.toList : Option Char → List Char) := by
    intro a b h
    cases a <;> cases b <;> simp_all
  constructor
  · rw [hdigits]
    exact (nodup_newDigits hall).map hinj
  · have hzero : '0' ∉ unusedChars (countedAssocs verbcs) := by
      intro h
      exact absurd (List.mem_of_mem_filter h) (by decide)
    have hnew : ∀ c ∈ verbcs.map assocDigit, countedAssoc c ∉ unusedChars (countedAssocs verbcs) := by
      intro c hc
      refine notMem_unusedChars ?_
      obtain ⟨verbc, hverbc, rfl⟩ := List.mem_map.mp hc
      exact List.mem_map.mpr ⟨verbc, hverbc, rfl⟩
    have hiff := zero_mem_iff (verbcs.map assocDigit) [] hzero hnew
    rw [List.map_map, show (verbcs.map (countedAssoc ∘ assocDigit)) = countedAssocs verbcs from rfl,
      ← newAssocs, ← newDigits] at hiff
    rw [hdigits, show (['0'] : List Char) = Option.toList (some '0') from rfl,
      List.mem_map_of_injective hinj, hiff]
    simp

end Verbs

/-- Two pins of association one: the second one gets the first that is not used. -/
theorem nverbcs_distinct_iff_sample :
    ((nverbcs ["01471c10".toList, "01571c1f".toList, "01a71c20".toList]).map (cutChars 7 7)).Nodup := by
  have hvalid : ∀ verbc ∈ ["01471c10".toList, "01571c1f".toList, "01a71c20".toList],
      verbc.length = 8 ∧ isLowerHex (assocDigit verbc) = true := by decide
  obtain ⟨hiff, hdistinct⟩ := nverbcs_distinct_iff hvalid
  exact (hdistinct (hiff.mpr (by decide))).1

end AppleALC.HdaTools
