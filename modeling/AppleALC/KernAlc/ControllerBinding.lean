import AppleALC.KernAlc.PatchDelivery

/-!
# Which mod a controller is bound to

`validateControllers` walks over the mod table for every controller and stops at the first entry
that suits it.  The entries of one device may overlap: some are for any platform, some for one, some
name models or revisions.  Three of the checks skip an entry with `continue`, the last one ends the
walk; what comes out is the first entry that passes all of them.

It runs once, in the call that loads the controllers.  From then on the list of controllers, and with
it every binding, stays as it is.

* `Suits` — the four checks, as one condition;
* `findMod_spec` — the walk stops at the first entry that meets it;
* `BoundToFirst` — a controller with such an entry is bound to it, and any other to none;
* `controllers_bound_to_first` — so are all controllers, from the call that loads them on.
-/

namespace AppleALC

open OutputMachine

/-! ### The walk over the table -/

/-- The entry is for this controller, on a machine of this model. -/
structure ControllerModInfo.Suits (m : ControllerModInfo) (computerModel : UInt32)
    (c : ControllerInfo) : Prop where
  vendor : m.vendor = c.vendor
  device : m.device = c.device
  platform : m.platform = PlatformAny ∨ m.platform = c.platform
  computerModel : computerModel &&& m.computerModel ≠ 0
  revisions : m.revisions = [] ∨ c.revision ∈ m.revisions

section Walk

variable {model : UInt32} {c : ControllerInfo} {m : ControllerModInfo}

/-- An entry that suits ends the walk, any other one is passed over. -/
theorem findMod_of_suits (h : m.Suits model c) (mod : ℕ) (ms : List ControllerModInfo) :
    findMod model c mod (m :: ms) = some mod := by
  have hplatform : ¬(m.platform ≠ PlatformAny ∧ m.platform ≠ c.platform) := by
    rintro ⟨hany, hother⟩
    exact h.platform.elim hany hother
  rw [findMod, if_pos ⟨h.vendor.symm, h.device.symm⟩, if_neg hplatform, if_neg h.computerModel,
    if_pos ((revisionMatches_iff _ _).mpr h.revisions)]

theorem findMod_of_not_suits (h : ¬m.Suits model c) (mod : ℕ) (ms : List ControllerModInfo) :
    findMod model c mod (m :: ms) = findMod model c (mod + 1) ms := by
  rw [findMod]
  split
  · next hids =>
    split
    · rfl
    · next hplatform =>
      split
      · rfl
      · next hmodel =>
        split
        · next hrevision =>
          have hany : m.platform = PlatformAny ∨ m.platform = c.platform := by
            by_contra hno
            exact hplatform (not_or.mp hno)
          exact absurd ⟨hids.1.symm, hids.2.symm, hany, hmodel,
            (revisionMatches_iff _ _).mp hrevision⟩ h
        · rfl
  · rfl

/-- `info` points to the first entry of the table that suits the controller, or is null when none
does. -/
def BoundToFirst (table : List ControllerModInfo) (model : UInt32) (c : ControllerInfo) : Prop :=
  match c.info with
  | some mod => ∃ pre m post, table = pre ++ m :: post ∧ mod = pre.length ∧ m.Suits model c ∧
      ∀ other ∈ pre, ¬other.Suits model c
  | none => ∀ m ∈ table, ¬m.Suits model c

/-- **What the walk finds.** -/
theorem findMod_spec (model : UInt32) (c : ControllerInfo) (table : List ControllerModInfo) :
    ∀ start : ℕ, (∃ pre m post, table = pre ++ m :: post ∧
        findMod model c start table = some (start + pre.length) ∧ m.Suits model c ∧
        ∀ other ∈ pre, ¬other.Suits model c) ∨
      (findMod model c start table = none ∧ ∀ m ∈ table, ¬m.Suits model c) := by
  induction table with
  | nil => intro start; exact Or.inr ⟨rfl, by simp⟩
  | cons m ms ih =>
      intro start
      by_cases hm : m.Suits model c
      · exact Or.inl ⟨[], m, ms, rfl, findMod_of_suits hm start ms, hm, by simp⟩
      · rw [findMod_of_not_suits hm]
        rcases ih (start + 1) with ⟨pre, m', post, hsplit, hfound, hsuits, hpre⟩ | ⟨hnone, hall⟩
        · refine Or.inl ⟨m :: pre, m', post, by rw [hsplit]; rfl, ?_, hsuits, ?_⟩
          · rw [hfound, List.length_cons, show start + 1 + pre.length = start + (pre.length + 1)
              by omega]
          · exact List.forall_mem_cons.mpr ⟨hm, hpre⟩
        · exact Or.inr ⟨hnone, List.forall_mem_cons.mpr ⟨hm, hall⟩⟩

/-- Binding changes nothing that the checks look at. -/
theorem suits_bindController (table : List ControllerModInfo) :
    m.Suits model (bindController model table c) ↔ m.Suits model c := by
  obtain ⟨info, h⟩ := bindController_eq model table c
  rw [h]
  exact ⟨fun hs => ⟨hs.1, hs.2, hs.3, hs.4, hs.5⟩, fun hs => ⟨hs.1, hs.2, hs.3, hs.4, hs.5⟩⟩

/-- A controller that was not bound before is bound to the first entry that suits it. -/
theorem bindController_boundToFirst (table : List ControllerModInfo) (hinfo : c.info = none) :
    BoundToFirst table model (bindController model table c) := by
  simp only [BoundToFirst, suits_bindController]
  rcases findMod_spec model c table 0 with
    ⟨pre, m, post, hsplit, hfound, hsuits, hpre⟩ | ⟨hnone, hall⟩
  · have hbound : (bindController model table c).info = some pre.length := by
      rw [bindController, hfound, Nat.zero_add]
    rw [hbound]
    exact ⟨pre, m, post, hsplit, rfl, hsuits, hpre⟩
  · have hbound : (bindController model table c).info = none := by
      rw [bindController, hnone]
      exact hinfo
    rw [hbound]
    exact hall

end Walk

/-! ### Bindings over a run -/

section Run

variable (cfg : Config) (boot : Boot) (table : List ControllerModInfo)

/-- Calls that take an early return leave the plugin as it was loaded. -/
theorem stateAfter_idle {before : List KextLoad} (h : ∀ load ∈ before, ∀ k, ¬Proceeds cfg load k) :
    stateAfter cfg boot table before = bootAlc cfg.lilu boot table :=
  run_of_not_proceeds cfg h _

/-- The call that loads the controllers appends the analog one and binds them all. -/
theorem stateAfter_first {before : List KextLoad} {first : KextLoad}
    (hbefore : ∀ load ∈ before, ∀ k, ¬Proceeds cfg load k) (hfirst : ∃ k, Proceeds cfg first k) :
    (stateAfter cfg boot table (before ++ [first])).progressState.controllersLoaded = true ∧
      (stateAfter cfg boot table (before ++ [first])).controllers =
        ((bootAlc cfg.lilu boot table).controllers ++ (grabbed cfg.lilu first).toList).map
          (bindController first.modelType table) := by
  have hbooted := updateProperties_booted cfg.lilu boot table
  have hunloaded : (bootAlc cfg.lilu boot table).progressState.controllersLoaded = false := by
    rw [bootAlc, hbooted.progressState]
  have hstep : stateAfter cfg boot table (before ++ [first]) =
      (processKext cfg first (bootAlc cfg.lilu boot table)).1 := by
    rw [stateAfter_append, stateAfter_idle cfg boot table hbefore]
    rfl
  rw [hstep]
  obtain ⟨k, hk⟩ := hfirst
  refine ⟨controllersLoaded_of_proceeds cfg hk _, ?_⟩
  rw [controllers_of_grabs cfg ⟨hunloaded, k, hk⟩, bootAlc, hbooted.controllerMod]

/-- Every run with a call that proceeds has a first one. -/
theorem exists_first_proceeding {loads : List KextLoad}
    (h : ∃ load ∈ loads, ∃ k, Proceeds cfg load k) :
    ∃ before first after, loads = before ++ first :: after ∧
      (∀ load ∈ before, ∀ k, ¬Proceeds cfg load k) ∧ ∃ k, Proceeds cfg first k := by
  induction loads with
  | nil => exact absurd h (by simp)
  | cons load loads ih =>
      by_cases hload : ∃ k, Proceeds cfg load k
      · exact ⟨[], load, loads, rfl, by simp, hload⟩
      · have hrest : ∃ l ∈ loads, ∃ k, Proceeds cfg l k := by
          obtain ⟨l, hl, hk⟩ := h
          rcases List.mem_cons.mp hl with rfl | hl
          · exact absurd hk hload
          · exact ⟨l, hl, hk⟩
        obtain ⟨before, first, after, hsplit, hbefore, hfirst⟩ := ih hrest
        exact ⟨load :: before, first, after, by rw [hsplit]; rfl,
          List.forall_mem_cons.mpr ⟨not_exists.mp hload, hbefore⟩, hfirst⟩

/-- No controller was bound before the first call that proceeds. -/
theorem unbound_before {c : ControllerInfo} {load : KextLoad}
    (hc : c ∈ (bootAlc cfg.lilu boot table).controllers ++ (grabbed cfg.lilu load).toList) :
    c.info = none := by
  rcases List.mem_append.mp hc with hc | hc
  · exact ((updateProperties_booted cfg.lilu boot table).controllers c hc).info
  · exact (grabbed_spec (Option.mem_toList.mp hc)).2.2.2.1

/-- **Controller binding.**  In every run with a call for a listed kext other than AppleGFXHDA, the
controllers are complete after the first such call: the ones registered at boot and the analog one,
in this order.  In every state from then on the list is the same, and each controller is bound to the
first entry of the table that suits it, or to none when there is no such entry. -/
theorem controllers_bound_to_first (loads : List KextLoad)
    (h : ∃ load ∈ loads, ∃ k, Proceeds cfg load k) :
    ∃ before first after, loads = before ++ first :: after ∧
      (∀ load ∈ before, ∀ k, ¬Proceeds cfg load k) ∧ (∃ k, Proceeds cfg first k) ∧
      (stateAfter cfg boot table (before ++ [first])).controllers.map ControllerInfo.entry =
        ((bootAlc cfg.lilu boot table).controllers ++ (grabbed cfg.lilu first).toList).map
          ControllerInfo.entry ∧
      ∀ between rest, after = between ++ rest →
        (stateAfter cfg boot table (before ++ first :: between)).controllers =
            (stateAfter cfg boot table (before ++ [first])).controllers ∧
          ∀ c ∈ (stateAfter cfg boot table (before ++ first :: between)).controllers,
            BoundToFirst table first.modelType c := by
  obtain ⟨before, first, after, hsplit, hbefore, hfirst⟩ := exists_first_proceeding cfg h
  obtain ⟨hloaded, hcontrollers⟩ := stateAfter_first cfg boot table hbefore hfirst
  refine ⟨before, first, after, hsplit, hbefore, hfirst, ?_, ?_⟩
  · rw [hcontrollers, List.map_map]
    exact List.map_congr_left fun c _ => bindController_entry _ _ c
  · intro between rest _
    have hsame : (stateAfter cfg boot table (before ++ first :: between)).controllers =
        (stateAfter cfg boot table (before ++ [first])).controllers := by
      rw [show before ++ first :: between = before ++ [first] ++ between by simp, stateAfter_append]
      exact (controllers_stay cfg between hloaded).2
    refine ⟨hsame, ?_⟩
    intro c hc
    rw [hsame, hcontrollers] at hc
    obtain ⟨c₀, hc₀, rfl⟩ := List.mem_map.mp hc
    exact bindController_boundToFirst table (unbound_before cfg boot table hc₀)

/-- The analog controller of the sample board is bound to the only entry there is. -/
theorem controllers_bound_to_first_sample :
    ∃ before first after, [Sample.load [] 12, Sample.load [] 11] = before ++ first :: after ∧
      ∀ c ∈ (stateAfter Sample.config (Sample.boot []) Sample.controllerMod
        (before ++ first :: [])).controllers,
        BoundToFirst Sample.controllerMod first.modelType c := by
  obtain ⟨before, first, after, hsplit, -, -, -, hall⟩ := controllers_bound_to_first Sample.config
    (Sample.boot []) Sample.controllerMod [Sample.load [] 12, Sample.load [] 11]
    ⟨Sample.load [] 12, by simp, 2, by decide, by decide⟩
  exact ⟨before, first, after, hsplit, (hall [] after rfl).2⟩

end Run

end AppleALC
