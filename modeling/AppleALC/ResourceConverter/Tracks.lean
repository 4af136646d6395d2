import AppleALC.ResourceConverter.Denotes

/-!
# The static variables of the converter

What links the static variables to the text written so far: every numbered name that the text
defines has a number below its running number, and what the two caches hold is in the text.  Each
generator keeps this, defines new names only, and returns text that denotes what it was given.

* `Tracks` — the invariant, with text that still waits to be written;
* `Tracked.allocate` — a new numbered definition keeps it;
* `generateRevisions_spec` — the first generator.
-/

namespace AppleALC.ResourceConverter

open Numeral SourceText Initializer Definitions OutputMachine

inductive Stem where
  | file
  | revisions
  | platforms
  | layouts
  | patches
  | patchBuf
  deriving DecidableEq

namespace Stem

def text : Stem → String
  | file => "file"
  | revisions => "revisions"
  | platforms => "platforms"
  | layouts => "layouts"
  | patches => "patches"
  | patchBuf => "patchBuf"

def count (c : Converter) : Stem → ℕ
  | file => c.fileIndex
  | revisions => c.revisionIndex
  | platforms => c.platformIndex
  | layouts => c.layoutIndex
  | patches => c.patchIndex
  | patchBuf => c.patchBufIndex

theorem isWord (s : Stem) : IsWord s.text := by
  cases s <;> decide

theorem apart {s t : Stem} (h : s ≠ t) : Apart s.text t.text := by
  cases s <;> cases t <;> first | exact absurd rfl h | decide

theorem numbered_ne_null (s : Stem) (i : ℕ) : numbered s.text i ≠ "nullptr" := by
  have hnull : Apart "nullptr" s.text := by cases s <;> decide
  exact (hnull.ne (decimal i)).symm

theorem numbered_inj {s t : Stem} {i j : ℕ} (h : numbered s.text i = numbered t.text j) :
    s = t ∧ i = j := by
  by_cases hst : s = t
  · subst hst
    exact ⟨rfl, numbered_injective h⟩
  · exact absurd h ((apart hst).append_ne _ _)

end Stem

/-- **The invariant of the converter.**  `text` is what is written and what is waiting to be, `others`
are the names in it that have no running number. -/
structure Tracks (tree : ResourceTree) (others : List String) (text : String) (c : Converter)
    (scope : Scope String Value) : Prop where
  defines : Defines [] text scope
  names : ∀ n ∈ scope.names, n ∈ others ∨ ∃ s : Stem, ∃ i, i < s.count c ∧ n = numbered s.text i
  apart : ∀ n ∈ others, ∀ (s : Stem) (i : ℕ), n ≠ numbered s.text i
  files : ∀ path i, c.fileList.lookup path = some i → ∃ bytes,
    tree.contentsAtPath path = some bytes ∧ scope.lookup (numbered "file" i) = some (.bytes bytes)
  buffers : ∀ patch i, c.patchBufMap.lookup patch = some i →
    scope.lookup (numbered "patchBuf" i) = some (.bytes patch)

/-- The invariant with nothing waiting. -/
def Tracked (tree : ResourceTree) (others : List String) (c : Converter)
    (scope : Scope String Value) : Prop := Tracks tree others c.output c scope

variable {tree : ResourceTree} {others : List String} {text : String} {c c' : Converter}
variable {scope scope' scope'' : Scope String Value}

namespace Tracks

/-- The next number of every name is free. -/
theorem fresh (h : Tracks tree others text c scope) (s : Stem) :
    numbered s.text (s.count c) ∉ scope.names := by
  intro hmem
  rcases h.names _ hmem with hother | ⟨t, i, hi, heq⟩
  · exact h.apart _ hother s _ rfl
  · obtain ⟨rfl, rfl⟩ := Stem.numbered_inj heq
    exact absurd hi (Nat.lt_irrefl _)

/-- A name without a running number is free if it is none of the others. -/
theorem fresh_other (h : Tracks tree others text c scope) {name : String} (hname : name ∉ others)
    (hapart : ∀ (s : Stem) (i : ℕ), name ≠ numbered s.text i) : name ∉ scope.names := by
  intro hmem
  rcases h.names _ hmem with hother | ⟨s, i, -, heq⟩
  · exact hname hother
  · exact hapart s i heq

/-- The invariant looks at the running numbers and the caches only. -/
theorem congr (h : Tracks tree others text c scope) (hcount : ∀ s : Stem, s.count c' = s.count c)
    (hfiles : c'.fileList = c.fileList) (hbuffers : c'.patchBufMap = c.patchBufMap) :
    Tracks tree others text c' scope where
  defines := h.defines
  names := by
    intro n hn
    rcases h.names n hn with hother | ⟨s, i, hi, heq⟩
    · exact Or.inl hother
    · exact Or.inr ⟨s, i, by rw [hcount s]; exact hi, heq⟩
  apart := h.apart
  files := by rw [hfiles]; exact h.files
  buffers := by rw [hbuffers]; exact h.buffers

theorem appendFile (h : Tracks tree others text c scope) (data : String) :
    Tracks tree others text (c.appendFile data) scope :=
  h.congr (fun s => by cases s <;> rfl) rfl rfl

/-- Blank lines and comments. -/
theorem nothing (h : Tracks tree others text c scope) {more : String} (hmore : Reads more []) :
    Tracks tree others (text ++ more) c scope :=
  { h with defines := h.defines.append (defines_nothing hmore) }

/-- A definition with the next running number. -/
theorem allocate (h : Tracks tree others text c scope) (s : Stem) {more : String} {v : Value}
    (hmore : Defines scope more ((numbered s.text (s.count c), v) :: scope))
    (hself : s.count c < s.count c') (hcount : ∀ t : Stem, t.count c ≤ t.count c')
    (hfiles : ∀ path i, c'.fileList.lookup path = some i → c.fileList.lookup path = some i ∨
      ∃ bytes, tree.contentsAtPath path = some bytes ∧ s = .file ∧ i = s.count c ∧ v = .bytes bytes)
    (hbuffers : ∀ patch i, c'.patchBufMap.lookup patch = some i →
      c.patchBufMap.lookup patch = some i ∨ (s = .patchBuf ∧ i = s.count c ∧ v = .bytes patch)) :
    Tracks tree others (text ++ more) c' ((numbered s.text (s.count c), v) :: scope) where
  defines := h.defines.append hmore
  names := by
    intro n hn
    rcases List.mem_cons.mp hn with rfl | hn
    · exact Or.inr ⟨s, s.count c, hself, rfl⟩
    · rcases h.names n hn with hother | ⟨t, i, hi, heq⟩
      · exact Or.inl hother
      · exact Or.inr ⟨t, i, Nat.lt_of_lt_of_le hi (hcount t), heq⟩
  apart := h.apart
  files := by
    intro path i hi
    rcases hfiles path i hi with hold | ⟨bytes, hbytes, rfl, rfl, rfl⟩
    · obtain ⟨bytes, hbytes, hlookup⟩ := h.files path i hold
      exact ⟨bytes, hbytes, extends_cons (h.fresh s) v _ _ hlookup⟩
    · exact ⟨bytes, hbytes, List.lookup_cons_self⟩
  buffers := by
    intro patch i hi
    rcases hbuffers patch i hi with hold | ⟨rfl, rfl, rfl⟩
    · exact extends_cons (h.fresh s) v _ _ (h.buffers patch i hold)
    · exact List.lookup_cons_self

/-- A definition of a name without a running number. -/
theorem named (h : Tracks tree others text c scope) {name more : String} {v : Value}
    (hmore : Defines scope more ((name, v) :: scope)) (hfresh : name ∉ scope.names)
    (hapart : ∀ (s : Stem) (i : ℕ), name ≠ numbered s.text i) :
    Tracks tree (name :: others) (text ++ more) c ((name, v) :: scope) where
  defines := h.defines.append hmore
  names := by
    intro n hn
    rcases List.mem_cons.mp hn with rfl | hn
    · exact Or.inl List.mem_cons_self
    · rcases h.names n hn with hother | hnumbered
      · exact Or.inl (List.mem_cons_of_mem _ hother)
      · exact Or.inr hnumbered
  apart := by
    intro n hn
    rcases List.mem_cons.mp hn with rfl | hn
    · exact hapart
    · exact h.apart n hn
  files := by
    intro path i hi
    obtain ⟨bytes, hbytes, hlookup⟩ := h.files path i hi
    exact ⟨bytes, hbytes, extends_cons hfresh v _ _ hlookup⟩
  buffers := fun patch i hi => extends_cons hfresh v _ _ (h.buffers patch i hi)

/-- The definition of a table that `kern_resources.hpp` declares, and of its size. -/
theorem exported (h : Tracks tree others text c scope) {k : Kind} {front name size body : String}
    {v : Value} (n : ℕ) (hbody : DenotesTable scope k body v) (hfront : Reads front k.front)
    (hback : k.back = [.punct ')', .punct '[', .punct ']']) (hname : IsWord name)
    (hsize : IsWord size) (hother : name ∉ others) (hother' : size ∉ name :: others)
    (hapart : ∀ s : Stem, Apart name s.text) (hapart' : ∀ s : Stem, Apart size s.text) :
    ∃ scope', Tracks tree (size :: name :: others)
        (text ++ (front ++ name ++ ")[] \x7b\n" ++ body ++ "\x7d;\n" ++ sizeText size n)) c scope' ∧
      Extends scope scope' ∧ scope'.lookup name = some v ∧ scope'.lookup size = some (.size n) := by
  have hne := fun (s : Stem) (i : ℕ) => (hapart s).ne (decimal i)
  have hne' := fun (s : Stem) (i : ℕ) => (hapart' s).ne (decimal i)
  have hfresh := h.fresh_other hother hne
  have htable := h.named (defines_exported hbody hfresh hfront hname hback) hfresh hne
  have hfresh' := htable.fresh_other hother' hne'
  have hboth := htable.named (defines_size hsize hfresh' n) hfresh' hne'
  rw [String.append_assoc] at hboth
  exact ⟨_, hboth, (extends_cons hfresh v).trans (extends_cons hfresh' _),
    extends_cons hfresh' _ _ _ List.lookup_cons_self, List.lookup_cons_self⟩

end Tracks

/-! ### Revisions -/

/-- A numbered table that is in scope, with its pointer and count. -/
theorem denotesArray_numbered {α : Type} {select : Value → Option (List α)} {s : Stem} {i : ℕ}
    {v : Value} {xs : List α} (hname : scope.lookup (numbered s.text i) = some v)
    (hv : select v = some xs) :
    DenotesArray scope select (fields [numbered s.text i, decimal xs.length]) (some xs) :=
  denotesArray_table (isWord_numbered s.isWord i) (s.numbered_ne_null i) hname hv

/-- **`generateRevisions`** returns text that denotes the revisions. -/
theorem generateRevisions_spec (h : Tracked tree others c scope) (revs : Option (List UInt32)) :
    ∃ scope', Tracked tree others (generateRevisions revs c).2 scope' ∧ Extends scope scope' ∧
      DenotesArray scope' Value.asNumbers (generateRevisions revs c).1 revs := by
  cases revs with
  | none => exact ⟨scope, h, Extends.refl scope, denotesArray_null _⟩
  | some revs =>
      have hfresh : numbered "revisions" c.revisionIndex ∉ scope.names := h.fresh .revisions
      have hitems : List.Forall₂ (Denotes scope fun _ => readUInt32)
          (revs.map fun item => hexNumeral item.toNat) revs := by
        rw [List.forall₂_map_left_iff, List.forall₂_same]
        exact fun item _ => (denotes_hexNumeral scope item.toNat).uint32_toNat
      have hbody : DenotesTable scope .numbers
          ((revs.map fun item => hexNumeral item.toNat).foldl
            (fun str item => str ++ item ++ ", ") "") (.numbers revs) :=
        (denotesAll_items hitems).table fun _ => rfl
      have hdef : Defines scope (makeNumberList "revisions" c.revisionIndex revs "uint32_t")
          ((numbered "revisions" c.revisionIndex, .numbers revs) :: scope) :=
        defines_list hbody hfresh (by decide) (by decide) rfl
      refine ⟨_, ?_, extends_cons hfresh _,
        denotesArray_numbered (s := .revisions) (v := .numbers revs) List.lookup_cons_self rfl⟩
      refine h.allocate .revisions hdef (Nat.lt_succ_self _) ?_ (fun _ _ hi => Or.inl hi)
        (fun _ _ hi => Or.inl hi)
      intro t
      cases t <;> first | exact Nat.le_refl _ | exact Nat.le_succ _

end AppleALC.ResourceConverter
