import AppleALC.KernAlc.ControllerBinding
import AppleALC.KernAlc.NvidiaIds

/-!
# When the NVIDIA device-ids run out

There are sixteen ids, some of them reserved for audio functions that are present.  A placeholder
patch that finds no free id keeps its find, and the loop goes on to submit it like any other patch.

All placeholder patches of the bound mods claim an id in the first call that proceeds, in the order
of the controllers and of the patches of their mods.  Later calls claim again, to no effect.  So the
placeholders that get an id are the first distinct ones of that order, as many as there are free ids
after the boot, and what is submitted as a placeholder is what is submitted of the others.

* `waitingOf` — the placeholders of the bound mods, in the order in which they claim;
* `processKext_submitsPlaceholder` — a call submits a placeholder exactly if one found no id;
* `IdsSuffice` — there are as many free ids as placeholders, where the loop starts;
* `neverSubmitsPlaceholder_iff` — no placeholder is ever submitted exactly in such runs.
-/

namespace AppleALC

open OutputMachine CursorPool

/-! ### The claims of a loop as a list -/

/-- The positions of the placeholders of a mod, from position `j` on. -/
def placeholders (m : ℕ) : (j : ℕ) → List KextPatch → List (ℕ × ℕ)
  | _, [] => []
  | j, patch :: patches =>
      if IsPlaceholder patch.patch then (m, j) :: placeholders m (j + 1) patches
      else placeholders m (j + 1) patches

/-- The placeholders that wait for a device-id in the mod a controller is bound to. -/
def waitingOf (table : List ControllerModInfo) (c : ControllerInfo) : List (ℕ × ℕ) :=
  match c.info with
  | none => []
  | some m =>
      match table[m]? with
      | none => []
      | some info => if info.vendor = VendorID.NVIDIA then placeholders m 0 info.patches else []

/-- The placeholders in the order in which the controller loop comes to them. -/
def waiting (table : List ControllerModInfo) (cs : List ControllerInfo) : List (ℕ × ℕ) :=
  cs.flatMap (waitingOf table)

theorem claimPatches_eq (m : ℕ) (patches : List KextPatch) :
    ∀ (j : ℕ) (l : IdLedger), claimPatches m j patches l =
      l.claimAll MaxNvidiaDeviceIds (placeholders m j patches) := by
  induction patches with
  | nil => intro j l; rfl
  | cons patch patches ih =>
      intro j l
      rw [claimPatches, ih, placeholders]
      split
      · rfl
      · rfl

theorem claimController_eq (table : List ControllerModInfo) (c : ControllerInfo) (l : IdLedger) :
    claimController table c l = l.claimAll MaxNvidiaDeviceIds (waitingOf table c) := by
  unfold claimController waitingOf
  cases c.info with
  | none => rfl
  | some m =>
      simp only
      cases table[m]? with
      | none => rfl
      | some info =>
          simp only [claimMod]
          split
          · exact claimPatches_eq m info.patches 0 l
          · rfl

theorem mem_placeholders {m : ℕ} {x : ℕ × ℕ} {patches : List KextPatch} :
    ∀ {j : ℕ}, x ∈ placeholders m j patches ↔
      ∃ i patch, x = (m, j + i) ∧ patches[i]? = some patch ∧ IsPlaceholder patch.patch := by
  induction patches with
  | nil => intro j; simp [placeholders]
  | cons patch patches ih =>
      intro j
      have hrest : (∃ i p, x = (m, j + i) ∧ (patch :: patches)[i]? = some p ∧ IsPlaceholder p.patch) ↔
          (x = (m, j) ∧ IsPlaceholder patch.patch) ∨
            ∃ i p, x = (m, j + 1 + i) ∧ patches[i]? = some p ∧ IsPlaceholder p.patch := by
        constructor
        · rintro ⟨i, p, hx, hp, hplace⟩
          cases i with
          | zero =>
              rw [List.getElem?_cons_zero, Option.some.injEq] at hp
              subst hp
              exact Or.inl ⟨hx, hplace⟩
          | succ i =>
              refine Or.inr ⟨i, p, ?_, by simpa using hp, hplace⟩
              rw [hx, show j + (i + 1) = j + 1 + i by omega]
        · rintro (⟨hx, hplace⟩ | ⟨i, p, hx, hp, hplace⟩)
          · exact ⟨0, patch, hx, rfl, hplace⟩
          · refine ⟨i + 1, p, ?_, by simpa using hp, hplace⟩
            rw [hx, show j + 1 + i = j + (i + 1) by omega]
      rw [hrest, ← ih, placeholders]
      split
      · next hplace => simp [hplace]
      · next hplace => simp [hplace]

/-- Who waits: the placeholders of the NVIDIA mod that the controller is bound to. -/
theorem mem_waitingOf {table : List ControllerModInfo} {c : ControllerInfo} {m j : ℕ} :
    (m, j) ∈ waitingOf table c ↔ c.info = some m ∧ ∃ info patch, table[m]? = some info ∧
      info.vendor = VendorID.NVIDIA ∧ info.patches[j]? = some patch ∧
        IsPlaceholder patch.patch := by
  unfold waitingOf
  cases c.info with
  | none => simp
  | some m' =>
      simp only
      constructor
      · intro h
        split at h
        · exact absurd h (by simp)
        · next info hinfo =>
          split at h
          · next hvendor =>
            obtain ⟨i, patch, hx, hpatch, hplace⟩ := mem_placeholders.mp h
            rw [Prod.mk.injEq, Nat.zero_add] at hx
            obtain ⟨rfl, rfl⟩ := hx
            exact ⟨rfl, info, patch, hinfo, hvendor, hpatch, hplace⟩
          · exact absurd h (by simp)
      · rintro ⟨hm, info, patch, hinfo, hvendor, hpatch, hplace⟩
        rw [Option.some.injEq] at hm
        subst hm
        simp only [hinfo, hvendor, if_true]
        exact mem_placeholders.mpr ⟨j, patch, by rw [Nat.zero_add], hpatch, hplace⟩

/-! ### Submitted placeholders -/

section Call

variable (cfg : Config) {table : List ControllerModInfo} {reserved : ℕ → Bool} {l : IdLedger}
  {alc : AlcEnabler} {index m j : ℕ}

/-- A placeholder at position `(m, j)` of an NVIDIA mod is among the events. -/
def SubmitsPlaceholder (table : List ControllerModInfo) (m j : ℕ) (events : List Event) : Prop :=
  ∃ info p, table[m]? = some info ∧ info.vendor = VendorID.NVIDIA ∧ IsPlaceholder p ∧
    .controllerPatch m j p ∈ events

/-- The patch at position `(m, j)` of the table applies to the kext of this load index. -/
def AppliesAt (table : List ControllerModInfo) (index m j : ℕ) : Prop :=
  ∃ patch, patchAt table m j = some patch ∧ Applies cfg index patch

/-- Rewriting the find does not change where a patch applies. -/
theorem applies_rewritten (patch : KextPatch) (slot : Option ℕ) :
    Applies cfg index (patch.rewritten slot) ↔ Applies cfg index patch := by
  cases slot <;> rfl

/-- A patch is still a placeholder exactly if it was one and has no slot. -/
theorem isPlaceholder_rewritten {patch : KextPatch} {slot : Option ℕ}
    (hslot : ∀ k, slot = some k → k < MaxNvidiaDeviceIds) :
    IsPlaceholder (patch.rewritten slot).patch ↔ IsPlaceholder patch.patch ∧ slot = none := by
  cases slot with
  | none => simp [KextPatch.rewritten]
  | some k => simp [KextPatch.rewritten, not_isPlaceholder_withId patch (hslot k rfl)]

/-- **What one controller submits as a placeholder**: what waits in its mod and has no slot after its
claims. -/
theorem patchController_submitsPlaceholder (h : Represents table reserved l alc)
    (c : ControllerInfo) :
    SubmitsPlaceholder table m j (patchController cfg index c alc).2 ↔
      c.nopatch = false ∧ (m, j) ∈ waitingOf table c ∧ AppliesAt cfg table index m j ∧
        (claimController table c l).owned (m, j) = none := by
  have hclaim : ∀ info, c.info = some m → table[m]? = some info →
      claimController table c l = claimMod m info l := by
    intro info hc hinfo
    simp only [claimController, hc, hinfo]
  have hconsistent : (claimController table c l).Consistent MaxNvidiaDeviceIds reserved := by
    rw [claimController_eq]
    exact h.consistent.claimAll _
  have hlt : ∀ k, (claimController table c l).owned (m, j) = some k → k < MaxNvidiaDeviceIds :=
    fun k hk => (hconsistent.fresh _ k hk).1
  constructor
  · rintro ⟨info, p, hinfo, hvendor, hplace, hevent⟩
    obtain ⟨hc, hnopatch, info', patch', hmod, hpatch', rfl, happlies⟩ :=
      (mem_patchController cfg).mp hevent
    rw [h.controllerMod, rewriteTable, List.getElem?_mapIdx, hinfo, Option.map_some,
      Option.some.injEq] at hmod
    subst hmod
    rw [getElem?_chosen h j hinfo, Option.map_eq_some_iff] at hpatch'
    obtain ⟨patch, hpatch, rfl⟩ := hpatch'
    rw [← hclaim info hc hinfo] at hplace happlies
    obtain ⟨hwaits, hslot⟩ := (isPlaceholder_rewritten hlt).mp hplace
    refine ⟨hnopatch, mem_waitingOf.mpr ⟨hc, info, patch, hinfo, hvendor, hpatch, hwaits⟩, ?_, hslot⟩
    exact ⟨patch, by simp [patchAt, hinfo, hpatch], (applies_rewritten cfg patch _).mp happlies⟩
  · rintro ⟨hnopatch, hwaiting, ⟨patch', hat, happlies⟩, hslot⟩
    obtain ⟨hc, info, patch, hinfo, hvendor, hpatch, hwaits⟩ := mem_waitingOf.mp hwaiting
    have hsame : patch' = patch := by
      simpa [patchAt, hinfo, hpatch, eq_comm] using hat
    subst hsame
    refine ⟨info, patch'.patch, hinfo, hvendor, hwaits, ?_⟩
    rw [mem_patchController]
    refine ⟨hc, hnopatch, rewriteMod l m info, patch', ?_, ?_, rfl, happlies⟩
    · rw [h.controllerMod, rewriteTable, List.getElem?_mapIdx, hinfo, Option.map_some]
    · rw [getElem?_chosen h j hinfo, hpatch, Option.map_some, ← hclaim info hc hinfo, hslot]
      rfl

/-- The controller loop makes the claims of its controllers in order. -/
theorem patchLoop_represents (cs : List ControllerInfo) (h : Represents table reserved l alc) :
    Represents table reserved (l.claimAll MaxNvidiaDeviceIds (waiting table cs))
      (run (patchController cfg index) cs alc) := by
  induction cs generalizing l alc with
  | nil => exact h
  | cons c cs ih =>
      have hstep := patchController_represents cfg index c h
      rw [claimController_eq] at hstep
      rw [run_cons, waiting, List.flatMap_cons, Ledger.claimAll_append]
      exact ih hstep

theorem Represents.of_same {alc' : AlcEnabler} (h : Represents table reserved l alc)
    (hmod : alc'.controllerMod = alc.controllerMod) (hpool : alc'.pool = alc.pool) :
    Represents table reserved l alc' :=
  ⟨hpool.trans h.pool, hmod.trans h.controllerMod, h.owners, h.consistent⟩

/-- A call makes the claims of the controllers detected by then. -/
theorem processKext_represents {load : KextLoad} {k : ℕ} (hk : Proceeds cfg load k)
    (h : Represents table reserved l alc) :
    Represents table reserved (l.claimAll MaxNvidiaDeviceIds
      (waiting table (detect cfg load k alc).controllers)) (processKext cfg load alc).1 := by
  have hflags := processKext_of_proceeds cfg hk alc
  obtain ⟨hmod, hpool⟩ := detect_pool cfg load k alc
  exact (patchLoop_represents cfg _ (h.of_same hmod hpool)).of_same hflags.controllerMod hflags.pool

end Call

/-! ### Over a run -/

section Run

variable (cfg : Config) (boot : Boot) (table : List ControllerModInfo)

/-- Every placeholder is rewritten or left out: no call of the run submits one of an NVIDIA mod. -/
def NeverSubmitsPlaceholder (loads : List KextLoad) : Prop :=
  ∀ pre load post, loads = pre ++ load :: post → ∀ m j info p, table[m]? = some info →
    info.vendor = VendorID.NVIDIA →
      .controllerPatch m j p ∈ (processKext cfg load (stateAfter cfg boot table pre)).2 →
        ¬IsPlaceholder p

/-- The controllers as the call `first` completes and binds them. -/
def controllersOf (first : KextLoad) : List ControllerInfo :=
  ((bootAlc cfg.lilu boot table).controllers ++ (grabbed cfg.lilu first).toList).map
    (bindController first.modelType table)

/-- The number of device-ids that are not marked after the boot. -/
def freeIds : ℕ := free MaxNvidiaDeviceIds (bootAlc cfg.lilu boot table).pool

/-- Every placeholder that some call of the run would submit is among the first distinct ones, as
many as there are free ids. -/
def IdsSuffice (loads : List KextLoad) : Prop :=
  ∀ before first after, loads = before ++ first :: after →
    (∀ load ∈ before, ∀ k, ¬Proceeds cfg load k) → (∃ k, Proceeds cfg first k) →
      ∀ load ∈ first :: after, (∃ k, Proceeds cfg load k) →
        ∀ c ∈ controllersOf cfg boot table first, c.nopatch = false →
          ∀ m j, (m, j) ∈ waitingOf table c → AppliesAt cfg table load.index m j →
            AmongFirst (freeIds cfg boot table)
              (waiting table (controllersOf cfg boot table first)) (m, j)

/-- Nobody owns an id when the patcher is loaded. -/
def bootLedger : IdLedger := ⟨(bootAlc cfg.lilu boot table).pool, fun _ => none⟩

/-- A call starts its controller loop over the controllers `cs`, either as the first one or after
all that wait in them have made their claims. -/
structure StartsLoop (cs : List ControllerInfo) (alc : AlcEnabler) : Prop where
  controllers : alc.controllers = cs
  claimed : ∃ xs, (xs = [] ∨ ∃ ys, xs = waiting table cs ++ ys) ∧
    Represents table (bootAlc cfg.lilu boot table).nvidiaDeviceIdUsage
      ((bootLedger cfg boot table).claimAll MaxNvidiaDeviceIds xs) alc

variable {cfg boot table}

/-- Whether a placeholder gets an id does not depend on how often its claim is repeated, nor on the
claims behind it. -/
theorem amongFirst_claimed {n : ℕ} {cs pre post : List ControllerInfo} {c : ControllerInfo}
    {xs : List (ℕ × ℕ)} {x : ℕ × ℕ} (hsplit : cs = pre ++ c :: post)
    (hxs : xs = [] ∨ ∃ ys, xs = waiting table cs ++ ys) (hx : x ∈ waitingOf table c) :
    AmongFirst n (xs ++ (waiting table pre ++ waitingOf table c)) x ↔
      AmongFirst n (waiting table cs) x := by
  have hcs : waiting table cs = waiting table pre ++ waitingOf table c ++ waiting table post := by
    rw [hsplit, waiting, List.flatMap_append, List.flatMap_cons, ← List.append_assoc]
    rfl
  have hmem : x ∈ waiting table pre ++ waitingOf table c := List.mem_append_right _ hx
  rcases hxs with rfl | ⟨ys, rfl⟩
  · rw [List.nil_append, hcs, amongFirst_append hmem]
  · have hall : x ∈ waiting table cs := by
      rw [hcs]
      exact List.mem_append_left _ hmem
    rw [List.append_assoc, amongFirst_append hall]

/-- **What a call submits as a placeholder**: what applies to its kext and came too late for an
id. -/
theorem processKext_submitsPlaceholder {load : KextLoad} {k m j : ℕ} {alc : AlcEnabler}
    {cs : List ControllerInfo} (hk : Proceeds cfg load k)
    (h : StartsLoop cfg boot table cs (detect cfg load k alc)) :
    SubmitsPlaceholder table m j (processKext cfg load alc).2 ↔
      ∃ c ∈ cs, c.nopatch = false ∧ (m, j) ∈ waitingOf table c ∧
        AppliesAt cfg table load.index m j ∧
          ¬AmongFirst (freeIds cfg boot table) (waiting table cs) (m, j) := by
  obtain ⟨hcs, xs, hxs, hrep⟩ := h
  -- the controller in the middle of the loop
  have hone : ∀ pre c post, cs = pre ++ c :: post →
      (SubmitsPlaceholder table m j (patchController cfg load.index c
          (run (patchController cfg load.index) pre (detect cfg load k alc))).2 ↔
        c.nopatch = false ∧ (m, j) ∈ waitingOf table c ∧ AppliesAt cfg table load.index m j ∧
          ¬AmongFirst (freeIds cfg boot table) (waiting table cs) (m, j)) := by
    intro pre c post hsplit
    have hpre : Represents table _ _ (run (patchController cfg load.index) pre (detect cfg load k alc)) :=
      patchLoop_represents cfg pre hrep
    rw [← Ledger.claimAll_append] at hpre
    rw [patchController_submitsPlaceholder cfg hpre, claimController_eq, ← Ledger.claimAll_append,
      List.append_assoc]
    refine and_congr_right fun _ => and_congr_right fun hwaits => and_congr_right fun _ => ?_
    rw [← Option.not_isSome_iff_eq_none, (Ledger.claimAll_spec (fun _ => rfl) _).1,
      amongFirst_claimed hsplit hxs hwaits]
    rfl
  constructor
  · rintro ⟨info, p, hinfo, hvendor, hplace, hevent⟩
    obtain ⟨k', pre, c, post, hk', hsplit, hevent⟩ := (mem_processKext_controllerPatch cfg).mp hevent
    have hkk : k' = k := Option.some.inj (hk'.1.symm.trans hk.1)
    subst hkk
    rw [hcs] at hsplit
    refine ⟨c, by rw [hsplit]; simp, ?_⟩
    exact (hone pre c post hsplit).mp ⟨info, p, hinfo, hvendor, hplace, hevent⟩
  · rintro ⟨c, hc, hsubmits⟩
    obtain ⟨pre, post, hsplit⟩ := List.append_of_mem hc
    obtain ⟨info, p, hinfo, hvendor, hplace, hevent⟩ := (hone pre c post hsplit).mpr hsubmits
    refine ⟨info, p, hinfo, hvendor, hplace, (mem_processKext_controllerPatch cfg).mpr ?_⟩
    exact ⟨k, pre, c, post, hk, by rw [hcs, hsplit], hevent⟩

variable (boot table)

section First

variable {before : List KextLoad} {first : KextLoad}
  (hbefore : ∀ load ∈ before, ∀ k, ¬Proceeds cfg load k)

include hbefore

/-- Before the first call that proceeds nobody has claimed. -/
theorem represents_before : Represents table (bootAlc cfg.lilu boot table).nvidiaDeviceIdUsage
    (bootLedger cfg boot table) (stateAfter cfg boot table before) := by
  rw [stateAfter_idle cfg boot table hbefore]
  exact bootAlc_represents cfg boot table

/-- The first call that proceeds starts with no claims made. -/
theorem startsLoop_first {k : ℕ} (hk : Proceeds cfg first k) :
    StartsLoop cfg boot table (controllersOf cfg boot table first)
      (detect cfg first k (stateAfter cfg boot table before)) := by
  obtain ⟨hmod, hpool⟩ := detect_pool cfg first k (stateAfter cfg boot table before)
  refine ⟨?_, [], Or.inl rfl, (represents_before boot table hbefore).of_same hmod hpool⟩
  have hcontrollers := (stateAfter_first cfg boot table hbefore ⟨k, hk⟩).2
  rw [stateAfter_append, run_cons, run_nil, (processKext_same cfg hk _).controllers] at hcontrollers
  exact hcontrollers

/-- The controllers are loaded after the first call and stay as they are. -/
theorem controllers_after {k : ℕ} (hk : Proceeds cfg first k) (between : List KextLoad) :
    (stateAfter cfg boot table (before ++ first :: between)).controllers =
      controllersOf cfg boot table first := by
  obtain ⟨hloaded, hcontrollers⟩ := stateAfter_first cfg boot table hbefore ⟨k, hk⟩
  rw [show before ++ first :: between = before ++ [first] ++ between by simp, stateAfter_append,
    (controllers_stay cfg between hloaded).2]
  exact hcontrollers

/-- After the first call everybody has claimed; later calls repeat claims. -/
theorem represents_after {k : ℕ} (hk : Proceeds cfg first k) (between : List KextLoad) :
    ∃ ys, Represents table (bootAlc cfg.lilu boot table).nvidiaDeviceIdUsage
      ((bootLedger cfg boot table).claimAll MaxNvidiaDeviceIds
        (waiting table (controllersOf cfg boot table first) ++ ys))
      (stateAfter cfg boot table (before ++ first :: between)) := by
  induction between using List.reverseRecOn with
  | nil =>
      refine ⟨[], ?_⟩
      have hcall := processKext_represents cfg hk (represents_before boot table hbefore)
      rw [(startsLoop_first boot table hbefore hk).controllers] at hcall
      rw [List.append_nil, stateAfter_append, run_cons, run_nil]
      exact hcall
  | append_singleton between load ih =>
      obtain ⟨ys, hrep⟩ := ih
      rw [show before ++ first :: (between ++ [load]) = before ++ first :: between ++ [load] by simp,
        stateAfter_append, run_cons, run_nil]
      by_cases hload : ∃ k, Proceeds cfg load k
      · obtain ⟨k', hk'⟩ := hload
        have hcall := processKext_represents cfg hk' hrep
        rw [← Ledger.claimAll_append, List.append_assoc] at hcall
        exact ⟨_, hcall⟩
      · rw [processKext_of_not_proceeds cfg (not_exists.mp hload)]
        exact ⟨ys, hrep⟩

/-- A later call starts after everybody has claimed. -/
theorem startsLoop_later {k k' : ℕ} (hk : Proceeds cfg first k) {between : List KextLoad}
    {load : KextLoad} (hk' : Proceeds cfg load k') :
    StartsLoop cfg boot table (controllersOf cfg boot table first)
      (detect cfg load k' (stateAfter cfg boot table (before ++ first :: between))) := by
  obtain ⟨ys, hrep⟩ := represents_after boot table hbefore hk between
  obtain ⟨hmod, hpool⟩ := detect_pool cfg load k'
    (stateAfter cfg boot table (before ++ first :: between))
  refine ⟨?_, _, Or.inr ⟨ys, rfl⟩, hrep.of_same hmod hpool⟩
  -- the controllers after detection are those after the call
  have hcontrollers := controllers_after boot table hbefore hk (between ++ [load])
  rw [show before ++ first :: (between ++ [load]) = before ++ first :: between ++ [load] by simp,
    stateAfter_append, run_cons, run_nil, (processKext_same cfg hk' _).controllers] at hcontrollers
  exact hcontrollers

end First

/-- Where a call that proceeds stands in a run: it is the first such call or comes after it. -/
theorem startsLoop_of_split {loads pre post : List KextLoad} {load : KextLoad} {k : ℕ}
    (hsplit : loads = pre ++ load :: post) (hk : Proceeds cfg load k) :
    ∃ before first after, loads = before ++ first :: after ∧
      (∀ load ∈ before, ∀ k, ¬Proceeds cfg load k) ∧ (∃ k, Proceeds cfg first k) ∧
      load ∈ first :: after ∧ StartsLoop cfg boot table (controllersOf cfg boot table first)
        (detect cfg load k (stateAfter cfg boot table pre)) := by
  by_cases hpre : ∃ l ∈ pre, ∃ k, Proceeds cfg l k
  · obtain ⟨before, first, between, rfl, hbefore, k', hk'⟩ := exists_first_proceeding cfg hpre
    refine ⟨before, first, between ++ load :: post, by rw [hsplit]; simp, hbefore, ⟨k', hk'⟩,
      by simp, ?_⟩
    exact startsLoop_later boot table hbefore hk' hk
  · have hbefore : ∀ l ∈ pre, ∀ k, ¬Proceeds cfg l k := by
      intro l hl k' hk'
      exact hpre ⟨l, hl, k', hk'⟩
    exact ⟨pre, load, post, hsplit, hbefore, ⟨k, hk⟩, by simp, startsLoop_first boot table hbefore hk⟩

variable (cfg)

/-- **When no placeholder is submitted.**  A run submits none of an NVIDIA mod exactly if every one
that it would submit is among the first distinct placeholders, as many as there are free ids. -/
theorem neverSubmitsPlaceholder_iff (loads : List KextLoad) :
    NeverSubmitsPlaceholder cfg boot table loads ↔ IdsSuffice cfg boot table loads := by
  constructor
  · intro hnever before first after hsplit hbefore ⟨kf, hkf⟩ load hload ⟨k, hk⟩ c hc hnopatch m j
      hwaits happlies
    by_contra hlate
    -- the call at which the placeholder would be submitted
    obtain ⟨pre, post, hpre, hstart⟩ : ∃ pre post, loads = pre ++ load :: post ∧
        StartsLoop cfg boot table (controllersOf cfg boot table first)
          (detect cfg load k (stateAfter cfg boot table pre)) := by
      rcases List.mem_cons.mp hload with rfl | hafter
      · exact ⟨before, after, hsplit, startsLoop_first boot table hbefore hk⟩
      · obtain ⟨between, post, rfl⟩ := List.append_of_mem hafter
        exact ⟨before ++ first :: between, post, by rw [hsplit]; simp,
          startsLoop_later boot table hbefore hkf hk⟩
    obtain ⟨info, p, hinfo, hvendor, hplace, hevent⟩ :=
      (processKext_submitsPlaceholder hk hstart).mpr ⟨c, hc, hnopatch, hwaits, happlies, hlate⟩
    exact hnever pre load post hpre m j info p hinfo hvendor hevent hplace
  · intro hsuffice pre load post hsplit m j info p hinfo hvendor hevent hplace
    obtain ⟨k, -, -, -, hk, -⟩ := (mem_processKext_controllerPatch cfg).mp hevent
    obtain ⟨before, first, after, hsplit', hbefore, hfirst, hload, hstart⟩ :=
      startsLoop_of_split boot table hsplit hk
    obtain ⟨c, hc, hnopatch, hwaits, happlies, hlate⟩ :=
      (processKext_submitsPlaceholder hk hstart).mp ⟨info, p, hinfo, hvendor, hplace, hevent⟩
    exact hlate (hsuffice before first after hsplit' hbefore hfirst load hload ⟨k, hk⟩ c hc hnopatch
      m j hwaits happlies)

end Run

namespace Sample

def placeholderPatch : KextPatch where
  patch := { kext := 2, find := [0x4E, 0x56, 0x44, 0x41], replace := [0xDE, 0x10, 0xBB, 0x0F]
             size := 4, count := 1 }

/-- A mod of an NVIDIA audio function with one placeholder more than there are ids. -/
def crowdedMod : List ControllerModInfo :=
  [{ name := "GM204 HD Audio", vendor := 0x10DE, device := 0x0FBB, revisions := []
     platform := PlatformAny, computerModel := 3
     patches := List.replicate 17 placeholderPatch }]

def externalAudio : Registry Device := fun d key =>
  if d = .externalAudio 0 then
    if key = "device-id" then some (.data (bytesOfUInt32 0x0FBB))
    else if key = "revision-id" then some (.data (bytesOfUInt32 0xA1))
    else none
  else none

def externalBoot : Boot where
  devInfo := some { videoExternal := [{ vendor := 0x10DE, audio := true }] }
  registry := externalAudio

def externalLoad : KextLoad where
  index := 12
  modelType := 1

end Sample

/-- The last of seventeen placeholders is submitted as it is. -/
theorem not_neverSubmitsPlaceholder_sample :
    ¬NeverSubmitsPlaceholder Sample.config Sample.externalBoot Sample.crowdedMod
      [Sample.externalLoad] := by
  intro h
  refine h [] Sample.externalLoad [] rfl 0 16 _ Sample.placeholderPatch.patch rfl rfl ?_ (by decide)
  decide

end AppleALC
