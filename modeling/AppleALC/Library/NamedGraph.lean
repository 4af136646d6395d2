import Mathlib.Logic.Relation

/-!
# Graphs on names

A graph that is written down with names for its vertices.  If different vertices have different names,
what can be said of the names can be said of the vertices: which of them are there, and which paths
there are.

* `transGen_map_iff` — a path of names is a path of vertices;
* `closed_iff` — every edge of names ends at names that are there exactly if every edge of vertices
  ends at vertices that are.
-/

namespace NamedGraph

open Relation

variable {α β : Type*} {name : α → β} {P : α → Prop}
  (hinj : ∀ x y, P x → P y → name x = name y → x = y)

include hinj

/-- A name is there exactly if its vertex is. -/
theorem exists_name_iff {D : α → Prop} (hD : ∀ x, D x → P x) {x : α} (hx : P x) :
    (∃ y, D y ∧ name y = name x) ↔ D x := by
  constructor
  · rintro ⟨y, hy, heq⟩
    exact hinj y x (hD y hy) hx heq ▸ hy
  · exact fun h => ⟨x, h, rfl⟩

variable {r : α → α → Prop} (hr : ∀ x y, r x y → P x ∧ P y)

include hr

/-- All edges end at names that are there exactly if all edges end at such vertices. -/
theorem closed_iff {D : α → Prop} (hD : ∀ x, D x → P x) :
    (∀ s t, Relation.Map r name name s t → (∃ x, D x ∧ name x = s) ∧ ∃ x, D x ∧ name x = t) ↔
      ∀ x y, r x y → D x ∧ D y := by
  constructor
  · intro h x y hxy
    obtain ⟨hx, hy⟩ := hr x y hxy
    obtain ⟨hs, ht⟩ := h _ _ ⟨x, y, hxy, rfl, rfl⟩
    exact ⟨(exists_name_iff hinj hD hx).mp hs, (exists_name_iff hinj hD hy).mp ht⟩
  · rintro h _ _ ⟨x, y, hxy, rfl, rfl⟩
    obtain ⟨hx, hy⟩ := h x y hxy
    exact ⟨⟨x, hx, rfl⟩, ⟨y, hy, rfl⟩⟩

/-- A path between names is one between vertices. -/
theorem transGen_of_map {x : α} (hx : P x) {t : β} (h : TransGen (Relation.Map r name name) (name x) t) :
    ∃ y, P y ∧ name y = t ∧ TransGen r x y := by
  induction h with
  | single hstep =>
      obtain ⟨u, v, huv, hu, rfl⟩ := hstep
      obtain ⟨hPu, hPv⟩ := hr u v huv
      obtain rfl := hinj u x hPu hx hu
      exact ⟨v, hPv, rfl, .single huv⟩
  | tail _ hstep ih =>
      obtain ⟨y, hy, rfl, hpath⟩ := ih
      obtain ⟨u, v, huv, hu, rfl⟩ := hstep
      obtain ⟨hPu, hPv⟩ := hr u v huv
      obtain rfl := hinj u y hPu hy hu
      exact ⟨v, hPv, rfl, hpath.tail huv⟩

/-- **The paths between names are the paths between vertices.** -/
theorem transGen_map_iff {x y : α} (hx : P x) (hy : P y) :
    TransGen (Relation.Map r name name) (name x) (name y) ↔ TransGen r x y := by
  constructor
  · intro h
    obtain ⟨z, hz, heq, hpath⟩ := transGen_of_map hinj hr hx h
    exact hinj z y hz hy heq ▸ hpath
  · exact fun h => h.lift name fun u v huv => ⟨u, v, huv, rfl, rfl⟩

end NamedGraph
