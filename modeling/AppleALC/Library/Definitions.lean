import Mathlib.Data.List.Nodup

/-!
# Reading a list of definitions

A file of definitions is read from top to bottom into a scope, the values of the names defined so
far.  A definition may use names of the scope only, and may not define one of them again; what does
not obey this has no reading.  So the file as a whole defines every name once and before its first
use (`resolve_wellScoped`), and what a name stands for never changes while reading on
(`Extends`).

* `Language` — what the definitions of a language are, as a parameter;
* `resolve` / `resolve_append` — reading a list of definitions, and in two parts;
* `WellScoped` / `resolve_wellScoped` — every name once, and before its first use.
-/

namespace Definitions

variable {ν δ α : Type*}

/-- The names defined so far, the latest one first. -/
abbrev Scope (ν α : Type*) := List (ν × α)

def Scope.names (scope : Scope ν α) : List ν := scope.map Prod.fst

/-- How the definitions of a language are read: some are of no interest, the others have a name, the
names they use, and a value in the scope of these. -/
structure Language (ν δ α : Type*) where
  ignores : δ → Bool
  name : δ → Option ν
  uses : δ → List ν
  value : Scope ν α → δ → Option α

variable [DecidableEq ν] (lang : Language ν δ α)

def define (scope : Scope ν α) (d : δ) : Option (Scope ν α) :=
  if lang.ignores d then some scope
  else
    match lang.name d, lang.value scope d with
    | some n, some v =>
        if n ∉ scope.names ∧ ∀ u ∈ lang.uses d, u ∈ scope.names then some ((n, v) :: scope) else none
    | _, _ => none

/-- The scope after a list of definitions. -/
def resolve (ds : List δ) (scope : Scope ν α) : Option (Scope ν α) := ds.foldlM (define lang) scope

def definedNames (ds : List δ) : List ν :=
  ds.filterMap fun d => if lang.ignores d then none else lang.name d

/-- Every name is defined once, and before its first use. -/
def WellScoped (ds : List δ) : Prop :=
  ∀ pre d post, ds = pre ++ d :: post → lang.ignores d = false →
    ∃ n, lang.name d = some n ∧ n ∉ definedNames lang pre ∧ n ∉ definedNames lang post ∧
      ∀ u ∈ lang.uses d, u ∈ definedNames lang pre

/-- The names of the first scope keep their values. -/
def Extends (scope scope' : Scope ν α) : Prop :=
  ∀ n v, scope.lookup n = some v → scope'.lookup n = some v

variable {lang} {scope scope' scope'' : Scope ν α}

/-! ### Scopes -/

theorem Extends.refl (scope : Scope ν α) : Extends scope scope := fun _ _ h => h

theorem Extends.trans (h : Extends scope scope') (h' : Extends scope' scope'') :
    Extends scope scope'' := fun n v hn => h' n v (h n v hn)

theorem mem_names_iff {n : ν} : n ∈ scope.names ↔ ∃ v, scope.lookup n = some v := by
  induction scope with
  | nil =>
      constructor
      · intro h
        exact absurd h List.not_mem_nil
      · rintro ⟨v, hv⟩
        exact absurd hv (by simp)
  | cons entry scope ih =>
      obtain ⟨m, w⟩ := entry
      by_cases hm : n = m
      · subst hm
        exact ⟨fun _ => ⟨w, List.lookup_cons_self⟩, fun _ => List.mem_cons_self⟩
      · have hother : List.lookup n ((m, w) :: scope) = scope.lookup n := by
          rw [List.lookup_cons, beq_false_of_ne hm]
        rw [hother, ← ih]
        show n ∈ m :: Scope.names scope ↔ n ∈ Scope.names scope
        rw [List.mem_cons, or_iff_right hm]

theorem Extends.names (h : Extends scope scope') {n : ν} (hn : n ∈ scope.names) :
    n ∈ scope'.names := by
  obtain ⟨v, hv⟩ := mem_names_iff.mp hn
  exact mem_names_iff.mpr ⟨v, h n v hv⟩

theorem extends_cons {n : ν} (hn : n ∉ scope.names) (v : α) : Extends scope ((n, v) :: scope) := by
  intro m w hm
  have hne : m ≠ n := by
    rintro rfl
    exact hn (mem_names_iff.mpr ⟨w, hm⟩)
  rw [List.lookup_cons, beq_false_of_ne hne]
  exact hm

/-! ### One definition -/

theorem define_ignored {d : δ} (h : lang.ignores d = true) : define lang scope d = some scope := by
  rw [define, if_pos h]

theorem define_fresh {d : δ} {n : ν} {v : α} (hd : lang.ignores d = false)
    (hname : lang.name d = some n) (hn : n ∉ scope.names) (huses : ∀ u ∈ lang.uses d, u ∈ scope.names)
    (hvalue : lang.value scope d = some v) : define lang scope d = some ((n, v) :: scope) := by
  rw [define, hd, if_neg Bool.false_ne_true, hname, hvalue]
  exact if_pos ⟨hn, huses⟩

/-- **What one definition does.** -/
theorem define_cases {d : δ} (h : define lang scope d = some scope') :
    (lang.ignores d = true ∧ scope' = scope) ∨
      ∃ n v, lang.ignores d = false ∧ lang.name d = some n ∧ n ∉ scope.names ∧
        (∀ u ∈ lang.uses d, u ∈ scope.names) ∧ scope' = (n, v) :: scope := by
  by_cases hd : lang.ignores d = true
  · rw [define, if_pos hd, Option.some.injEq] at h
    exact Or.inl ⟨hd, h.symm⟩
  · rw [define, if_neg hd] at h
    rcases hname : lang.name d with _ | n
    · rw [hname] at h
      exact absurd h nofun
    · rcases hvalue : lang.value scope d with _ | v
      · rw [hname, hvalue] at h
        exact absurd h nofun
      · simp only [hname, hvalue] at h
        by_cases hok : n ∉ scope.names ∧ ∀ u ∈ lang.uses d, u ∈ scope.names
        · rw [if_pos hok, Option.some.injEq] at h
          exact Or.inr ⟨n, v, Bool.eq_false_iff.mpr hd, rfl, hok.1, hok.2, h.symm⟩
        · rw [if_neg hok] at h
          exact absurd h nofun

/-! ### Lists of definitions -/

@[simp] theorem resolve_nil : resolve lang [] scope = some scope := rfl

theorem resolve_cons {d : δ} {ds : List δ} :
    resolve lang (d :: ds) scope = (define lang scope d).bind (resolve lang ds) := rfl

theorem resolve_ignored {d : δ} (h : lang.ignores d = true) :
    resolve lang [d] scope = some scope := by
  rw [resolve_cons, define_ignored h, Option.bind_some, resolve_nil]

theorem resolve_append {ds es : List δ} (h : resolve lang ds scope = some scope')
    (h' : resolve lang es scope' = some scope'') :
    resolve lang (ds ++ es) scope = some scope'' := by
  rw [resolve, List.foldlM_append]
  show (resolve lang ds scope).bind (resolve lang es) = some scope''
  rw [h, Option.bind_some, h']

theorem resolve_append_inv {ds es : List δ} (h : resolve lang (ds ++ es) scope = some scope'') :
    ∃ mid, resolve lang ds scope = some mid ∧ resolve lang es mid = some scope'' := by
  rw [resolve, List.foldlM_append] at h
  exact Option.bind_eq_some_iff.mp h

omit [DecidableEq ν] in
theorem definedNames_ignored {d : δ} {ds : List δ} (hd : lang.ignores d = true) :
    definedNames lang (d :: ds) = definedNames lang ds := by
  simp [definedNames, hd]

omit [DecidableEq ν] in
theorem definedNames_named {d : δ} {ds : List δ} {n : ν} (hd : lang.ignores d = false)
    (hname : lang.name d = some n) : definedNames lang (d :: ds) = n :: definedNames lang ds := by
  simp [definedNames, hd, hname]

theorem resolve_names {ds : List δ} (h : resolve lang ds scope = some scope') :
    scope'.names = (definedNames lang ds).reverse ++ scope.names := by
  induction ds generalizing scope with
  | nil =>
      rw [resolve_nil, Option.some.injEq] at h
      rw [h]
      rfl
  | cons d ds ih =>
      rw [resolve_cons] at h
      obtain ⟨mid, hdef, hrest⟩ := Option.bind_eq_some_iff.mp h
      have hnames := ih hrest
      rcases define_cases hdef with ⟨hd, rfl⟩ | ⟨n, v, hd, hname, -, -, rfl⟩
      · rw [hnames, definedNames_ignored hd]
      · rw [hnames, definedNames_named hd hname, List.reverse_cons, List.append_assoc]
        rfl

theorem resolve_nodup {ds : List δ} (h : resolve lang ds scope = some scope')
    (hnodup : scope.names.Nodup) : scope'.names.Nodup := by
  induction ds generalizing scope with
  | nil =>
      rw [resolve_nil, Option.some.injEq] at h
      exact h ▸ hnodup
  | cons d ds ih =>
      rw [resolve_cons] at h
      obtain ⟨mid, hdef, hrest⟩ := Option.bind_eq_some_iff.mp h
      rcases define_cases hdef with ⟨-, rfl⟩ | ⟨n, v, -, -, hn, -, rfl⟩
      · exact ih hrest hnodup
      · exact ih hrest (List.nodup_cons.mpr ⟨hn, hnodup⟩)

/-- **What can be read is well scoped**: each name is defined once, and before its first use. -/
theorem resolve_wellScoped {ds : List δ} (h : resolve lang ds [] = some scope) :
    WellScoped lang ds := by
  intro pre d post hsplit hd
  rw [hsplit] at h
  obtain ⟨before, hpre, hrest⟩ := resolve_append_inv h
  rw [resolve_cons] at hrest
  obtain ⟨after, hdef, hpost⟩ := Option.bind_eq_some_iff.mp hrest
  have hbefore := resolve_names hpre
  have hafter := resolve_names hpost
  have hnodup := resolve_nodup h List.nodup_nil
  have hmem : ∀ u, u ∈ before.names ↔ u ∈ definedNames lang pre := by
    intro u
    rw [hbefore, List.mem_append, List.mem_reverse]
    exact or_iff_left List.not_mem_nil
  rcases define_cases hdef with ⟨hignored, -⟩ | ⟨n, v, -, hname, hn, huses, rfl⟩
  · exact absurd hignored (by rw [hd]; exact Bool.false_ne_true)
  · refine ⟨n, hname, fun hpre' => hn ((hmem n).mpr hpre'), ?_, fun u hu => (hmem u).mp (huses u hu)⟩
    intro hpost'
    rw [hafter] at hnodup
    exact (List.nodup_append.mp hnodup).2.2 n (List.mem_reverse.mpr hpost') n List.mem_cons_self rfl

end Definitions
