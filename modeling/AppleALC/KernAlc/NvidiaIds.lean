import AppleALC.KernAlc.OptOut

/-!
# Device-ids for NVIDIA audio functions

A patch of an NVIDIA mod whose find is the special placeholder is given an entry of
`nvidiaDeviceIdList` in its place.  The entries of the audio functions that `updateProperties`
registered are marked beforehand, and `processKext` takes the others one by one.

The state has three parts that must fit together: the marks, the cursor and the finds already
rewritten.  A ledger whose owners are the positions of patches holds all three.  `Represents` says
that the state is the one a ledger describes: its pool is the pool, and its table is the generated
table with every owned patch rewritten.  The controller loop is then a sequence of claims.

* `Represents` — the state is the one a ledger describes;
* `patchController_represents` / `stateAfter_represents` — a step of the loop is a claim, and every
  run keeps this;
* `nvidia_ids_allocated` — which ids are given, to whom, and that they stay.
-/

namespace AppleALC

open OutputMachine CursorPool

/-! ### Rewritten patches -/

/-- The patch with its find pointed at entry `k` of the list. -/
def KextPatch.withId (patch : KextPatch) (k : ℕ) : KextPatch :=
  { patch with patch := { patch.patch with find := bytesOfUInt32 (nvidiaDeviceIdList.getD k 0) } }

/-- The patch as its owner's slot says. -/
def KextPatch.rewritten (patch : KextPatch) (slot : Option ℕ) : KextPatch :=
  slot.elim patch patch.withId

/-- No entry of the list is the placeholder. -/
theorem nvidiaDeviceIdList_ne_special :
    ∀ k < MaxNvidiaDeviceIds, nvidiaDeviceIdList.getD k 0 ≠ NvidiaSpecialFind := by
  decide

/-- No entry is listed twice. -/
theorem nvidiaDeviceIdList_injective :
    ∀ k < MaxNvidiaDeviceIds, ∀ k' < MaxNvidiaDeviceIds,
      nvidiaDeviceIdList.getD k 0 = nvidiaDeviceIdList.getD k' 0 → k = k' := by
  decide

/-- A rewritten patch does not wait any more. -/
theorem not_isPlaceholder_withId (patch : KextPatch) {k : ℕ} (hk : k < MaxNvidiaDeviceIds) :
    ¬IsPlaceholder (patch.withId k).patch := by
  rintro ⟨-, hfind⟩
  rw [KextPatch.withId, uint32OfBytes_bytesOfUInt32] at hfind
  exact nvidiaDeviceIdList_ne_special k hk hfind

/-- The patches of a mod from position `j` on, as the slots of their positions say. -/
def rewritePatches (slot : ℕ → Option ℕ) : (j : ℕ) → List KextPatch → List KextPatch
  | _, [] => []
  | j, patch :: patches => patch.rewritten (slot j) :: rewritePatches slot (j + 1) patches

theorem rewritePatches_congr {slot slot' : ℕ → Option ℕ} {patches : List KextPatch} :
    ∀ {j : ℕ}, (∀ i, j ≤ i → slot i = slot' i) →
      rewritePatches slot j patches = rewritePatches slot' j patches := by
  induction patches with
  | nil => intro j _; rfl
  | cons patch patches ih =>
      intro j h
      rw [rewritePatches, rewritePatches, h j (le_refl j),
        ih fun i hi => h i (Nat.le_of_succ_le hi)]

theorem getElem?_rewritePatches (slot : ℕ → Option ℕ) (patches : List KextPatch) :
    ∀ (j i : ℕ), (rewritePatches slot j patches)[i]? =
      (patches[i]?).map fun patch => patch.rewritten (slot (j + i)) := by
  induction patches with
  | nil => intro j i; simp [rewritePatches]
  | cons patch patches ih =>
      intro j i
      cases i with
      | zero => simp [rewritePatches]
      | succ i =>
          rw [rewritePatches, List.getElem?_cons_succ, List.getElem?_cons_succ, ih,
            show j + 1 + i = j + (i + 1) by omega]

theorem rewritePatches_none (j : ℕ) (patches : List KextPatch) :
    rewritePatches (fun _ => none) j patches = patches := by
  induction patches generalizing j with
  | nil => rfl
  | cons patch patches ih => rw [rewritePatches, ih]; rfl

/-! ### The ledger of a state -/

/-- The owners are the positions of patches: mod and place in it. -/
abbrev IdLedger := Ledger (ℕ × ℕ)

def rewriteMod (l : IdLedger) (m : ℕ) (info : ControllerModInfo) : ControllerModInfo :=
  { info with patches := rewritePatches (fun j => l.owned (m, j)) 0 info.patches }

def rewriteTable (l : IdLedger) (table : List ControllerModInfo) : List ControllerModInfo :=
  table.mapIdx (rewriteMod l)

/-- Only placeholder patches of NVIDIA mods own a slot. -/
def OnlyPlaceholders (table : List ControllerModInfo) (l : IdLedger) : Prop :=
  ∀ m j k, l.owned (m, j) = some k → ∃ info patch, table[m]? = some info ∧
    info.vendor = VendorID.NVIDIA ∧ info.patches[j]? = some patch ∧ IsPlaceholder patch.patch

/-- The state is the one the ledger describes. -/
structure Represents (table : List ControllerModInfo) (reserved : ℕ → Bool) (l : IdLedger)
    (alc : AlcEnabler) : Prop where
  pool : alc.pool = l.pool
  controllerMod : alc.controllerMod = rewriteTable l table
  owners : OnlyPlaceholders table l
  consistent : l.Consistent MaxNvidiaDeviceIds reserved

/-- The claims that the patch loop over one mod makes. -/
def claimPatches (m : ℕ) : (j : ℕ) → List KextPatch → IdLedger → IdLedger
  | _, [], l => l
  | j, patch :: patches, l =>
      claimPatches m (j + 1) patches
        (if IsPlaceholder patch.patch then l.claim MaxNvidiaDeviceIds (m, j) else l)

theorem claimPatches_owned {m : ℕ} {x : ℕ × ℕ} {patches : List KextPatch} :
    ∀ {j : ℕ} {l : IdLedger}, (x.1 ≠ m ∨ x.2 < j) →
      (claimPatches m j patches l).owned x = l.owned x := by
  induction patches with
  | nil => intro j l _; rfl
  | cons patch patches ih =>
      intro j l h
      have hne : x ≠ (m, j) := by
        rintro rfl
        simp at h
      rw [claimPatches, ih (by omega)]
      split
      · exact Ledger.claim_owned_of_ne _ l hne
      · rfl

theorem claimPatches_extends (m : ℕ) (patches : List KextPatch) :
    ∀ (j : ℕ) (l : IdLedger), l.Extends (claimPatches m j patches l) := by
  induction patches with
  | nil => intro j l; exact Ledger.Extends.refl l
  | cons patch patches ih =>
      intro j l
      rw [claimPatches]
      split
      · exact (Ledger.claim_extends _ l _).trans (ih (j + 1) _)
      · exact ih (j + 1) l

theorem claimPatches_consistent {reserved : ℕ → Bool} (m : ℕ) (patches : List KextPatch) :
    ∀ (j : ℕ) {l : IdLedger}, l.Consistent MaxNvidiaDeviceIds reserved →
      (claimPatches m j patches l).Consistent MaxNvidiaDeviceIds reserved := by
  induction patches with
  | nil => intro j l h; exact h
  | cons patch patches ih =>
      intro j l h
      rw [claimPatches]
      split
      · exact ih (j + 1) (h.claim (m, j))
      · exact ih (j + 1) h

/-- Whoever owns a slot after the loop owned it before, or is a placeholder of this mod. -/
theorem claimPatches_owners {m k : ℕ} {x : ℕ × ℕ} {patches : List KextPatch} :
    ∀ {j : ℕ} {l : IdLedger}, (claimPatches m j patches l).owned x = some k →
      l.owned x = some k ∨ ∃ i patch, x = (m, j + i) ∧ patches[i]? = some patch ∧
        IsPlaceholder patch.patch := by
  induction patches with
  | nil => intro j l h; exact Or.inl h
  | cons patch patches ih =>
      intro j l h
      rw [claimPatches] at h
      rcases ih h with h | ⟨i, p, hx, hp, hplace⟩
      · split at h
        · next hplace =>
          by_cases hx : x = (m, j)
          · exact Or.inr ⟨0, patch, by simpa using hx, rfl, hplace⟩
          · rw [Ledger.claim_owned_of_ne _ l hx] at h
            exact Or.inl h
        · exact Or.inl h
      · refine Or.inr ⟨i + 1, p, ?_, by simpa using hp, hplace⟩
        rw [hx, show j + 1 + i = j + (i + 1) by omega]

/-! ### The patch loop is a sequence of claims -/

/-- One patch: the find is rewritten exactly when the claim succeeds. -/
theorem assignNvidiaId_eq {l : IdLedger} {m j : ℕ} {patch : KextPatch}
    (howned : ∀ k, l.owned (m, j) = some k →
      IsPlaceholder patch.patch ∧ k < MaxNvidiaDeviceIds) :
    let l' := if IsPlaceholder patch.patch then l.claim MaxNvidiaDeviceIds (m, j) else l
    assignNvidiaId l.pool (patch.rewritten (l.owned (m, j))) =
      (l'.pool, patch.rewritten (l'.owned (m, j))) := by
  cases hslot : l.owned (m, j) with
  | some k =>
      -- the patch was rewritten before, and is left alone
      obtain ⟨hplace, hk⟩ := howned k hslot
      have hnot : ¬IsPlaceholder (patch.rewritten (some k)).patch :=
        not_isPlaceholder_withId patch hk
      simp only [hplace, if_true, Ledger.claim_of_owned hslot, hslot]
      rw [assignNvidiaId, if_neg hnot]
  | none =>
      have hsame : patch.rewritten none = patch := rfl
      by_cases hplace : IsPlaceholder patch.patch
      · cases htake : take MaxNvidiaDeviceIds l.pool with
        | mk slot pool =>
            cases slot <;>
              simp [assignNvidiaId, hplace, htake, Ledger.claim, hslot, KextPatch.rewritten,
                KextPatch.withId]
      · simp [hsame, assignNvidiaId, hplace, hslot]

/-- **The loop over one mod**, on patches as the ledger says, makes the claims of that mod. -/
theorem assignNvidiaIds_eq {m : ℕ} {patches : List KextPatch} :
    ∀ {j : ℕ} {l : IdLedger}, (∀ i patch, patches[i]? = some patch →
        ∀ k, l.owned (m, j + i) = some k → IsPlaceholder patch.patch ∧ k < MaxNvidiaDeviceIds) →
      assignNvidiaIds l.pool (rewritePatches (fun j => l.owned (m, j)) j patches) =
        ((claimPatches m j patches l).pool,
          rewritePatches (fun i => (claimPatches m j patches l).owned (m, i)) j patches) := by
  induction patches with
  | nil => intro j l _; rfl
  | cons patch patches ih =>
      intro j l howned
      have hhead := assignNvidiaId_eq (m := m) (j := j) (howned 0 patch rfl)
      simp only at hhead
      simp only [rewritePatches, assignNvidiaIds, claimPatches, hhead]
      generalize hl' : (if IsPlaceholder patch.patch then
        l.claim MaxNvidiaDeviceIds (m, j) else l) = l'
      have hframe : ∀ i, j + 1 ≤ i → l.owned (m, i) = l'.owned (m, i) := by
        intro i hi
        rw [← hl']
        split
        · exact (Ledger.claim_owned_of_ne _ l (by simp; omega)).symm
        · rfl
      have htail := ih (j := j + 1) (l := l') (by
        intro i p hp k hk
        rw [← hframe _ (by omega), show j + 1 + i = j + (i + 1) by omega] at hk
        exact howned (i + 1) p (by simpa using hp) k hk)
      rw [rewritePatches_congr hframe, htail,
        claimPatches_owned (x := (m, j)) (Or.inr (Nat.lt_succ_self j))]

/-! ### The controller loop -/

section Loop

variable {table : List ControllerModInfo} {reserved : ℕ → Bool} {l : IdLedger} {alc : AlcEnabler}

/-- The claims of one mod change the table in that mod only. -/
theorem set_rewriteMod {m : ℕ} {info : ControllerModInfo} (hinfo : table[m]? = some info)
    {l' : IdLedger} (hframe : ∀ x, x.1 ≠ m → l'.owned x = l.owned x) :
    (rewriteTable l table).set m (rewriteMod l' m info) = rewriteTable l' table := by
  apply List.ext_getElem?
  intro i
  rw [List.getElem?_set]
  by_cases hi : m = i
  · subst hi
    have hlt : m < (rewriteTable l table).length := by
      rw [rewriteTable, List.length_mapIdx]
      exact (List.getElem?_eq_some_iff.mp hinfo).1
    rw [if_pos rfl, if_pos hlt, rewriteTable, List.getElem?_mapIdx, hinfo, Option.map_some]
  · rw [if_neg hi]
    simp only [rewriteTable, List.getElem?_mapIdx]
    congr 1
    funext info'
    simp only [rewriteMod]
    rw [rewritePatches_congr fun j _ => (hframe (i, j) (Ne.symm hi)).symm]

/-- The claims that the controller loop makes for one mod. -/
def claimMod (m : ℕ) (info : ControllerModInfo) (l : IdLedger) : IdLedger :=
  if info.vendor = VendorID.NVIDIA then claimPatches m 0 info.patches l else l

theorem claimMod_owned {m : ℕ} {info : ControllerModInfo} (l : IdLedger) {x : ℕ × ℕ}
    (hx : x.1 ≠ m) : (claimMod m info l).owned x = l.owned x := by
  unfold claimMod
  split
  · exact claimPatches_owned (Or.inl hx)
  · rfl

theorem claimMod_extends (m : ℕ) (info : ControllerModInfo) (l : IdLedger) :
    l.Extends (claimMod m info l) := by
  unfold claimMod
  split
  · exact claimPatches_extends m _ 0 l
  · exact Ledger.Extends.refl l

theorem claimMod_consistent (m : ℕ) (info : ControllerModInfo) {l : IdLedger}
    (h : l.Consistent MaxNvidiaDeviceIds reserved) :
    (claimMod m info l).Consistent MaxNvidiaDeviceIds reserved := by
  unfold claimMod
  split
  · exact claimPatches_consistent m _ 0 h
  · exact h

/-- Only placeholders of NVIDIA mods make claims. -/
theorem claimMod_onlyPlaceholders {m : ℕ} {info : ControllerModInfo} (hinfo : table[m]? = some info)
    (h : OnlyPlaceholders table l) : OnlyPlaceholders table (claimMod m info l) := by
  intro m' j k hk
  unfold claimMod at hk
  split at hk
  · next hvendor =>
    rcases claimPatches_owners hk with hk | ⟨i, patch, hx, hpatch, hplace⟩
    · exact h m' j k hk
    · rw [Nat.zero_add, Prod.mk.injEq] at hx
      obtain ⟨rfl, rfl⟩ := hx
      exact ⟨info, patch, hinfo, hvendor, hpatch, hplace⟩
  · exact h m' j k hk

/-- **What the controller loop does with one mod**: the pool and the patches it goes on with are
those of the ledger after the claims of the mod. -/
theorem assign_rewriteMod (h : Represents table reserved l alc) {m : ℕ} {info : ControllerModInfo}
    (hinfo : table[m]? = some info) :
    (if (rewriteMod l m info).vendor = VendorID.NVIDIA then
        assignNvidiaIds alc.pool (rewriteMod l m info).patches
        else (alc.pool, (rewriteMod l m info).patches)) =
      ((claimMod m info l).pool, (rewriteMod (claimMod m info l) m info).patches) := by
  unfold claimMod
  by_cases hvendor : (rewriteMod l m info).vendor = VendorID.NVIDIA
  · have howned : ∀ i patch, info.patches[i]? = some patch → ∀ k, l.owned (m, 0 + i) = some k →
        IsPlaceholder patch.patch ∧ k < MaxNvidiaDeviceIds := by
      intro i patch hpatch k hk
      rw [Nat.zero_add] at hk
      obtain ⟨info₀, patch₀, hinfo₀, -, hpatch₀, hplace⟩ := h.owners m i k hk
      rw [hinfo, Option.some.injEq] at hinfo₀
      subst hinfo₀
      rw [hpatch, Option.some.injEq] at hpatch₀
      subst hpatch₀
      exact ⟨hplace, (h.consistent.fresh _ k hk).1⟩
    rw [if_pos hvendor, h.pool, if_pos (show info.vendor = VendorID.NVIDIA from hvendor)]
    exact assignNvidiaIds_eq howned
  · rw [if_neg hvendor, h.pool, if_neg (show ¬info.vendor = VendorID.NVIDIA from hvendor)]

/-- The patches of a mod that the loop goes on with. -/
theorem getElem?_chosen (h : Represents table reserved l alc) {m : ℕ} (j : ℕ)
    {info : ControllerModInfo} (hinfo : table[m]? = some info) :
    (chosenPatches alc (rewriteMod l m info))[j]? =
      (info.patches[j]?).map fun patch => patch.rewritten ((claimMod m info l).owned (m, j)) := by
  rw [chosenPatches, assign_rewriteMod h hinfo, rewriteMod, getElem?_rewritePatches, Nat.zero_add]

/-- They are the generated ones, rewritten at most where they were placeholders of an NVIDIA mod. -/
theorem getElem?_chosenPatches (h : Represents table reserved l alc) {m j : ℕ}
    {info : ControllerModInfo} {patch : KextPatch} (hinfo : table[m]? = some info)
    (hpatch : info.patches[j]? = some patch) :
    ∃ slot, (chosenPatches alc (rewriteMod l m info))[j]? = some (patch.rewritten slot) ∧
      (slot ≠ none → info.vendor = VendorID.NVIDIA ∧ IsPlaceholder patch.patch) := by
  refine ⟨(claimMod m info l).owned (m, j), ?_, ?_⟩
  · rw [getElem?_chosen h j hinfo, hpatch, Option.map_some]
  · intro hne
    obtain ⟨k, hk⟩ := Option.ne_none_iff_exists'.mp hne
    obtain ⟨info₀, patch₀, hinfo₀, hvendor, hpatch₀, hplace⟩ :=
      claimMod_onlyPlaceholders hinfo h.owners m j k hk
    rw [hinfo, Option.some.injEq] at hinfo₀
    subst hinfo₀
    rw [hpatch, Option.some.injEq] at hpatch₀
    subst hpatch₀
    exact ⟨hvendor, hplace⟩

/-- The claims that one iteration of the controller loop makes. -/
def claimController (table : List ControllerModInfo) (c : ControllerInfo) (l : IdLedger) :
    IdLedger :=
  match c.info with
  | none => l
  | some m =>
      match table[m]? with
      | none => l
      | some info => claimMod m info l

theorem claimController_extends (table : List ControllerModInfo) (c : ControllerInfo)
    (l : IdLedger) : l.Extends (claimController table c l) := by
  unfold claimController
  split
  · exact Ledger.Extends.refl l
  · split
    · exact Ledger.Extends.refl l
    · exact claimMod_extends _ _ l

/-- **Step lemma.**  One iteration of the controller loop makes its claims, and does nothing else to
the table and the pool. -/
theorem patchController_represents (cfg : Config) (index : ℕ) (c : ControllerInfo)
    (h : Represents table reserved l alc) :
    Represents table reserved (claimController table c l) (patchController cfg index c alc).1 := by
  unfold patchController claimController
  cases c.info with
  | none => exact h
  | some m =>
      simp only [h.controllerMod, rewriteTable, List.getElem?_mapIdx]
      cases hinfo : table[m]? with
      | none => exact h
      | some info =>
          simp only [Option.map_some, assign_rewriteMod h hinfo]
          have hstore : Represents table reserved (claimMod m info l) (alc.storePatches m
              (rewriteMod l m info)
              ((claimMod m info l).pool, (rewriteMod (claimMod m info l) m info).patches)) := by
            refine { pool := rfl, controllerMod := ?_,
                     owners := claimMod_onlyPlaceholders hinfo h.owners,
                     consistent := claimMod_consistent m info h.consistent }
            simp only [AlcEnabler.storePatches, h.controllerMod]
            exact set_rewriteMod hinfo fun x hx => claimMod_owned l hx
          split <;> exact hstore

/-- The state follows from one that `l` describes. -/
def Follows (table : List ControllerModInfo) (reserved : ℕ → Bool) (l : IdLedger)
    (alc : AlcEnabler) : Prop :=
  ∃ l', l.Extends l' ∧ Represents table reserved l' alc

theorem Follows.of_same {alc' : AlcEnabler} (h : Follows table reserved l alc)
    (hmod : alc'.controllerMod = alc.controllerMod) (hpool : alc'.pool = alc.pool) :
    Follows table reserved l alc' := by
  obtain ⟨l', hext, hrep⟩ := h
  exact ⟨l', hext, hpool.trans hrep.pool, hmod.trans hrep.controllerMod, hrep.owners,
    hrep.consistent⟩

theorem follows_patchLoop (cfg : Config) (index : ℕ) (cs : List ControllerInfo)
    (h : Follows table reserved l alc) :
    Follows table reserved l (run (patchController cfg index) cs alc) := by
  refine run_invariant (P := Follows table reserved l) ?_ cs h
  rintro c alc' ⟨l', hext, hrep⟩
  exact ⟨claimController table c l', hext.trans (claimController_extends table c l'),
    patchController_represents cfg index c hrep⟩

/-- A call keeps the state described by an extending ledger. -/
theorem follows_step (cfg : Config) (load : KextLoad) (alc : AlcEnabler)
    (h : Follows table reserved l alc) :
    Follows table reserved l (processKext cfg load alc).1 := by
  by_cases hproceeds : ∃ k, Proceeds cfg load k
  · obtain ⟨k, hk⟩ := hproceeds
    have hflags := processKext_of_proceeds cfg hk alc
    obtain ⟨hmod, hpool⟩ := detect_pool cfg load k alc
    have hdetect := h.of_same hmod hpool
    exact (follows_patchLoop cfg load.index _ hdetect).of_same hflags.controllerMod hflags.pool
  · rw [processKext_of_not_proceeds cfg (not_exists.mp hproceeds)]
    exact h

end Loop

/-! ### Assigned patches -/

def patchAt (controllerMod : List ControllerModInfo) (m j : ℕ) : Option KextPatch :=
  (controllerMod[m]?).bind fun info => info.patches[j]?

/-- The patch at `(m, j)` was a placeholder of an NVIDIA mod, and its find is now entry `k` of the
list. -/
def Assigned (table : List ControllerModInfo) (alc : AlcEnabler) (m j k : ℕ) : Prop :=
  k < MaxNvidiaDeviceIds ∧
    (∃ info patch, table[m]? = some info ∧ info.vendor = VendorID.NVIDIA ∧
      info.patches[j]? = some patch ∧ IsPlaceholder patch.patch) ∧
    ∃ patch, patchAt alc.controllerMod m j = some patch ∧
      patch.patch.find = bytesOfUInt32 (nvidiaDeviceIdList.getD k 0)

section Assigned

variable {table : List ControllerModInfo} {reserved : ℕ → Bool} {l : IdLedger} {alc : AlcEnabler}

theorem patchAt_rewriteTable (l : IdLedger) (table : List ControllerModInfo) (m j : ℕ) :
    patchAt (rewriteTable l table) m j =
      (patchAt table m j).map fun patch => patch.rewritten (l.owned (m, j)) := by
  unfold patchAt
  cases hinfo : table[m]? with
  | none => simp [rewriteTable, hinfo]
  | some info =>
      simp [rewriteTable, hinfo, rewriteMod, getElem?_rewritePatches]

/-- A patch is assigned an entry exactly when the ledger says so. -/
theorem assigned_iff_owned (h : Represents table reserved l alc) (m j k : ℕ) :
    Assigned table alc m j k ↔ l.owned (m, j) = some k := by
  constructor
  · rintro ⟨hk, ⟨info, patch, hinfo, -, hpatch, -, hspecial⟩, patch', hpatch', hfind⟩
    have horig : patchAt table m j = some patch := by simp [patchAt, hinfo, hpatch]
    rw [h.controllerMod, patchAt_rewriteTable, horig, Option.map_some, Option.some.injEq] at hpatch'
    subst hpatch'
    cases hslot : l.owned (m, j) with
    | none =>
        -- the find would still be the placeholder
        rw [hslot] at hfind
        change patch.patch.find = _ at hfind
        rw [hfind, uint32OfBytes_bytesOfUInt32] at hspecial
        exact absurd hspecial (nvidiaDeviceIdList_ne_special k hk)
    | some k' =>
        rw [hslot] at hfind
        have hid := bytesOfUInt32_injective hfind
        rw [nvidiaDeviceIdList_injective k' (h.consistent.fresh _ _ hslot).1 k hk hid]
  · intro hslot
    obtain ⟨info, patch, hinfo, hvendor, hpatch, hplace⟩ := h.owners m j k hslot
    refine ⟨(h.consistent.fresh _ k hslot).1, ⟨info, patch, hinfo, hvendor, hpatch, hplace⟩,
      patch.withId k, ?_, rfl⟩
    rw [h.controllerMod, patchAt_rewriteTable, hslot]
    simp [patchAt, hinfo, hpatch, KextPatch.rewritten]

end Assigned

section Run

variable (cfg : Config) (boot : Boot) (table : List ControllerModInfo)

/-- Nothing is assigned when the patcher is loaded. -/
theorem bootAlc_represents :
    Represents table (bootAlc cfg.lilu boot table).nvidiaDeviceIdUsage
      ⟨(bootAlc cfg.lilu boot table).pool, fun _ => none⟩ (bootAlc cfg.lilu boot table) := by
  refine { pool := rfl, controllerMod := ?_, owners := ?_, consistent := ⟨?_, ?_, ?_⟩ }
  · have htable : (bootAlc cfg.lilu boot table).controllerMod = table :=
      (updateProperties_booted cfg.lilu boot table).controllerMod
    rw [htable, rewriteTable]
    apply List.ext_getElem?
    intro i
    rw [List.getElem?_mapIdx]
    cases table[i]? with
    | none => rfl
    | some info => simp [rewriteMod, rewritePatches_none]
  · intro m j k hk
    exact absurd hk (by simp)
  · intro k
    simp [AlcEnabler.pool]
  · intro x k hk
    exact absurd hk (by simp)
  · intro x y k hk
    exact absurd hk (by simp)

/-- **Run lemma.**  Every state is described by a ledger, and every later one by a ledger that
extends it. -/
theorem stateAfter_represents (loads : List KextLoad) :
    ∃ l, Represents table (bootAlc cfg.lilu boot table).nvidiaDeviceIdUsage l
        (stateAfter cfg boot table loads) ∧
      ∀ later, Follows table (bootAlc cfg.lilu boot table).nvidiaDeviceIdUsage l
        (stateAfter cfg boot table (loads ++ later)) := by
  obtain ⟨l, -, hrep⟩ := run_invariant (follows_step cfg) loads
    ⟨_, Ledger.Extends.refl _, bootAlc_represents cfg boot table⟩
  refine ⟨l, hrep, ?_⟩
  intro later
  rw [stateAfter, run_append]
  exact run_invariant (follows_step cfg) later ⟨l, Ledger.Extends.refl l, hrep⟩

/-- **NVIDIA device-ids.**  No entry is assigned to two patches; no assigned entry is the one of an
NVIDIA audio function registered by `updateProperties`; an assigned patch is never changed again and
never gets another entry; and the marked entries are those marked at boot and those assigned, so
nothing is consumed without a patch that holds it. -/
theorem nvidia_ids_allocated (loads : List KextLoad) :
    (∀ m j m' j' k, Assigned table (stateAfter cfg boot table loads) m j k →
      Assigned table (stateAfter cfg boot table loads) m' j' k → m = m' ∧ j = j') ∧
    (∀ m j k, Assigned table (stateAfter cfg boot table loads) m j k →
      ∀ c ∈ (bootAlc cfg.lilu boot table).controllers, c.vendor = VendorID.NVIDIA →
        nvidiaDeviceIdList.getD k 0 ≠ nvidiaDevice c.device) ∧
    (∀ m j k, Assigned table (stateAfter cfg boot table loads) m j k → ∀ later,
      patchAt (stateAfter cfg boot table (loads ++ later)).controllerMod m j =
          patchAt (stateAfter cfg boot table loads).controllerMod m j ∧
        ∀ k', Assigned table (stateAfter cfg boot table (loads ++ later)) m j k' ↔ k' = k) ∧
    (∀ k, (stateAfter cfg boot table loads).nvidiaDeviceIdUsage k = true ↔
      (bootAlc cfg.lilu boot table).nvidiaDeviceIdUsage k = true ∨
        ∃ m j, Assigned table (stateAfter cfg boot table loads) m j k) := by
  obtain ⟨l, hrep, hlater⟩ := stateAfter_represents cfg boot table loads
  refine ⟨?_, ?_, ?_, ?_⟩
  · intro m j m' j' k h h'
    have heq := hrep.consistent.injective _ _ k ((assigned_iff_owned hrep m j k).mp h)
      ((assigned_iff_owned hrep m' j' k).mp h')
    rwa [Prod.mk.injEq] at heq
  · intro m j k h c hc hvendor hid
    obtain ⟨hk, hfree⟩ := hrep.consistent.fresh _ k ((assigned_iff_owned hrep m j k).mp h)
    have hmarked : (bootAlc cfg.lilu boot table).nvidiaDeviceIdUsage k = true :=
      (updateProperties_booted cfg.lilu boot table).reserved c hc hvendor k hk hid
    rw [hmarked] at hfree
    exact absurd hfree (by decide)
  · intro m j k h later
    have howned := (assigned_iff_owned hrep m j k).mp h
    obtain ⟨l', hext, hrep'⟩ := hlater later
    have howned' := hext _ k howned
    constructor
    · rw [hrep.controllerMod, hrep'.controllerMod, patchAt_rewriteTable, patchAt_rewriteTable,
        howned, howned']
    · intro k'
      rw [assigned_iff_owned hrep', howned', Option.some.injEq, eq_comm]
  · intro k
    have hmarks := hrep.consistent.marks k
    rw [← hrep.pool] at hmarks
    simp only [assigned_iff_owned hrep]
    rw [show (stateAfter cfg boot table loads).nvidiaDeviceIdUsage k =
      (stateAfter cfg boot table loads).pool.used k from rfl, hmarks]
    simp only [Prod.exists]

end Run

end AppleALC
