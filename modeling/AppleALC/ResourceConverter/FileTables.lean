import AppleALC.ResourceConverter.Tracks

/-!
# Files and file tables

A file is written once and found again by its path; a file that is not there becomes a null pointer.
Either way the fields that `generateFile` returns denote what is at the path, so a file table denotes
the entries of its array.

* `generateFile_spec` — the fields of one file;
* `FilesDone` / `FilesDone.step` — the invariant of the loop over the files;
* `generateFiles_spec` — the table.
-/

namespace AppleALC.ResourceConverter

open Numeral SourceText Initializer Definitions OutputMachine

variable {tree : ResourceTree} {others : List String} {c : Converter}
variable {scope scope' : Scope String Value}

/-! ### One file -/

/-- Blanks between entries. -/
theorem denotesAll_blank {α : Type} {read : Scope String Value → Init → Option α} {text : String}
    (h : Reads text []) : DenotesAll scope read text [] :=
  ⟨[], ⟨[], h, terminated_nil⟩, inScope_nil, fun _ _ => rfl⟩

theorem denotesAll_fileLines (column : ℕ) (bytes : List UInt8) :
    DenotesAll scope (fun _ => readUInt8) (fileLines column bytes) bytes := by
  induction bytes generalizing column with
  | nil =>
      rw [fileLines]
      split
      · exact denotesAll_nil
      · exact denotesAll_blank (by decide)
  | cons b bytes ih =>
      have htab : Reads (if column = 0 then "\t" else "") [] := by
        split <;> decide
      have hline : Reads (if column = 23 then "\n" else "") [] := by
        split <;> decide
      exact (((denotesAll_blank htab).append (denotes_hexByte scope b).item).append
        (denotesAll_blank hline)).append (ih ((column + 1) % 24))

/-- **`generateFile`** returns text that denotes what is at the path. -/
theorem generateFile_spec (h : Tracked tree others c scope) (path inFile : String) :
    ∃ scope', Tracked tree others (generateFile tree.contentsAtPath path inFile c).2 scope' ∧
      Extends scope scope' ∧
      DenotesArray scope' Value.asBytes (generateFile tree.contentsAtPath path inFile c).1
        (tree.contentsAtPath (path ++ "/" ++ inFile)) ∧
      ∀ s : Stem, s ≠ .file →
        s.count (generateFile tree.contentsAtPath path inFile c).2 = s.count c := by
  rcases hcached : c.fileList.lookup (path ++ "/" ++ inFile) with _ | index
  · rcases hdata : tree.contentsAtPath (path ++ "/" ++ inFile) with _ | bytes
    · -- the file is missing: nothing is written
      have hresult : generateFile tree.contentsAtPath path inFile c = (nullTable, c) := by
        simp only [generateFile, hcached, hdata]
      rw [hresult]
      exact ⟨scope, h, Extends.refl scope, denotesArray_null _, fun _ _ => rfl⟩
    · -- a new file
      have hfresh : numbered "file" c.fileIndex ∉ scope.names := h.fresh .file
      have hbody : DenotesTable scope .bytes (fileLines 0 bytes) (.bytes bytes) :=
        (denotesAll_fileLines 0 bytes).table fun _ => rfl
      have hdef : Defines scope ("static const uint8_t " ++ numbered "file" c.fileIndex
          ++ "[] \x7b\n" ++ fileLines 0 bytes ++ "\x7d;\n")
          ((numbered "file" c.fileIndex, .bytes bytes) :: scope) :=
        defines_lines hbody hfresh (by decide) (by decide) rfl
      simp only [generateFile, hcached, hdata]
      refine ⟨_, ?_, extends_cons hfresh _, denotesArray_numbered (s := .file)
        (v := .bytes bytes) List.lookup_cons_self rfl, ?_⟩
      · refine h.allocate .file hdef (Nat.lt_succ_self _) ?_ ?_ (fun _ _ hi => Or.inl hi)
        · intro t
          cases t <;> first | exact Nat.le_refl _ | exact Nat.le_succ _
        · intro p i hi
          by_cases hp : p = path ++ "/" ++ inFile
          · subst hp
            rw [List.lookup_cons_self, Option.some.injEq] at hi
            exact Or.inr ⟨bytes, hdata, rfl, hi.symm, rfl⟩
          · rw [List.lookup_cons, beq_false_of_ne hp] at hi
            exact Or.inl hi
      · intro s hs
        cases s <;> first | exact absurd rfl hs | rfl
  · -- a file that is written already
    obtain ⟨bytes, hdata, hlookup⟩ := h.files _ _ hcached
    have hresult : generateFile tree.contentsAtPath path inFile c
        = (fields [numbered "file" index, decimal bytes.length], c) := by
      simp only [generateFile, hcached, hdata, Option.getD_some]
    rw [hresult, hdata]
    exact ⟨scope, h, Extends.refl scope, denotesArray_numbered (s := .file) hlookup rfl,
      fun _ _ => rfl⟩

/-! ### A file table -/

/-- The name that a kind of file table counts. -/
def FileTable.toStem : FileTable → Stem
  | platforms => .platforms
  | layouts => .layouts

theorem FileTable.stem_eq (t : FileTable) : t.stem = t.toStem.text := by
  cases t <;> rfl

theorem FileTable.index_eq (t : FileTable) (c : Converter) : t.index c = t.toStem.count c := by
  cases t <;> rfl

theorem FileTable.index_next (t : FileTable) (c : Converter) (data : String) :
    t.index (t.next (c.appendFile data)) - 1 = t.toStem.count c := by
  cases t <;> rfl

/-- The entry of one file. -/
theorem denotesAll_file (t : FileTable) (dir : String) (p : FileDict) {text : String}
    (h : DenotesArray scope Value.asBytes text (tree.contentsAtPath (filePath tree dir p))) :
    DenotesAll scope readFile ("\t\x7b " ++ fields [text, kernelText p.minKernel,
      kernelText p.maxKernel, decimal p.id.toNat] ++ t.entryEnd) [p.entry tree dir] := by
  obtain ⟨pointer, count, htext, hscope, hcount, hread⟩ := h
  obtain ⟨min, hmin, hscope1, hread1⟩ := denotes_kernel scope p.minKernel
  obtain ⟨max, hmax, hscope2, hread2⟩ := denotes_kernel scope p.maxKernel
  obtain ⟨id, hid, hscope3, hread3⟩ :=
    (denotes_decimal scope p.id.toNat).uint32_toNat
  have hbody := textItems_fields (List.cons_ne_nil _ _)
    (.cons htext (.cons hmin (.cons hmax (.cons hid .nil))))
  refine denotesAll_entry hbody t.endsEntry
    (hscope.append (hscope1.append (hscope2.append hscope3))) fun scope' hext => ?_
  have h0 := hread scope' hext
  have h1 := hread1 scope' hext
  have h2 := hread2 scope' hext
  have h3 := hread3 scope' hext
  show readFile scope' (.braces [pointer, count, min, max, id]) = _
  simp only [readFile, h0, h1, h2, h3, hcount, Option.bind_eq_bind, Option.bind_some]
  rfl

/-- What the file loop has written and collected after the entries `done`. -/
def FilesDone (tree : ResourceTree) (others : List String) (t : FileTable) (dir : String)
    (c : Converter) (scope : Scope String Value) (done : List FileDict) (s : String × Converter) :
    Prop :=
  ∃ scope' body, Tracked tree others s.2 scope' ∧ Extends scope scope' ∧
    s.1 = "static const CodecModInfo::File " ++ numbered t.stem (t.index c) ++ "[] \x7b\n" ++ body ∧
    DenotesAll scope' readFile body (done.map (FileDict.entry tree dir)) ∧ t.index s.2 = t.index c

theorem FilesDone.step {t : FileTable} {dir : String} {done : List FileDict}
    {s : String × Converter} (h : FilesDone tree others t dir c scope done s) (p : FileDict) :
    FilesDone tree others t dir c scope (done ++ [p])
      (fileStep t tree.contentsAtPath (tree.basePath ++ "/" ++ dir) s p) := by
  obtain ⟨scope', body, htracked, hext, htext, hbody, hindex⟩ := h
  obtain ⟨scope'', htracked', hext', hfile, hcounts⟩ :=
    generateFile_spec htracked (tree.basePath ++ "/" ++ dir) p.path
  have hentry : DenotesAll scope'' readFile _ ([p].map (FileDict.entry tree dir)) :=
    denotesAll_file t dir p hfile
  have htable := (hbody.mono hext').append hentry
  rw [← List.map_append] at htable
  refine ⟨scope'', _, htracked', hext.trans hext', ?_, htable, ?_⟩
  · show s.1 ++ _ = _
    rw [htext, String.append_assoc]
  · rw [FileTable.index_eq] at hindex ⊢
    rw [← hindex]
    exact hcounts t.toStem (by cases t <;> decide)

/-- The result of a generator of file tables. -/
theorem generateFiles_eq (t : FileTable) (contentsAtPath : String → Option (List UInt8))
    (files : List FileDict) (path : String) (c : Converter) :
    generateFiles t contentsAtPath (some files) path c =
      let s := files.foldl (fileStep t contentsAtPath path)
        ("static const CodecModInfo::File " ++ numbered t.stem (t.index c) ++ "[] \x7b\n", c)
      (fields [numbered t.toStem.text (t.toStem.count s.2), decimal files.length],
        t.next (s.2.appendFile (s.1 ++ "\x7d;\n"))) := by
  simp only [generateFiles]
  rw [t.index_next, t.stem_eq]

/-- A file table takes the next number of its kind. -/
theorem Tracks.allocateTable {text more : String} (h : Tracks tree others text c scope)
    (t : FileTable) {v : Value}
    (hmore : Defines scope more ((numbered t.toStem.text (t.toStem.count c), v) :: scope)) :
    Tracks tree others (text ++ more) (t.next (c.appendFile more))
      ((numbered t.toStem.text (t.toStem.count c), v) :: scope) := by
  have hself : t.toStem.count c < t.toStem.count (t.next (c.appendFile more)) := by
    cases t <;> exact Nat.lt_succ_self _
  have hcounts : ∀ u : Stem, u.count c ≤ u.count (t.next (c.appendFile more)) := by
    intro u
    cases t <;> cases u <;> first | exact Nat.le_refl _ | exact Nat.le_succ _
  exact h.allocate t.toStem hmore hself hcounts
    (fun path i hi => Or.inl (by cases t <;> exact hi))
    (fun patch i hi => Or.inl (by cases t <;> exact hi))

/-- **`generatePlatforms` and `generateLayouts`** return text that denotes the entries of the
array. -/
theorem generateFiles_spec (h : Tracked tree others c scope) (t : FileTable) (dir : String)
    (files : Option (List FileDict)) :
    ∃ scope', Tracked tree others
        (generateFiles t tree.contentsAtPath files (tree.basePath ++ "/" ++ dir) c).2 scope' ∧
      Extends scope scope' ∧
      DenotesArray scope' Value.asFiles
        (generateFiles t tree.contentsAtPath files (tree.basePath ++ "/" ++ dir) c).1
        (files.map fun ps => ps.map (FileDict.entry tree dir)) := by
  cases files with
  | none => exact ⟨scope, h, Extends.refl scope, denotesArray_null _⟩
  | some files =>
      -- the table is collected while its files are written
      have hstart : FilesDone tree others t dir c scope []
          ("static const CodecModInfo::File " ++ numbered t.stem (t.index c) ++ "[] \x7b\n", c) :=
        ⟨scope, "", h, Extends.refl scope, by rw [String.append_empty], denotesAll_nil, rfl⟩
      have hdone := foldl_invariant files hstart fun _ p _ _ _ hdone => hdone.step p
      rw [generateFiles_eq]
      generalize files.foldl (fileStep t tree.contentsAtPath (tree.basePath ++ "/" ++ dir))
        ("static const CodecModInfo::File " ++ numbered t.stem (t.index c) ++ "[] \x7b\n", c) = s
        at hdone
      obtain ⟨scope', body, htracked, hext, htext, hbody, hindex⟩ := hdone
      rw [FileTable.index_eq, FileTable.index_eq] at hindex
      have hfresh := htracked.fresh t.toStem
      have htable : DenotesTable scope' .files body
          (.files (files.map (FileDict.entry tree dir))) := hbody.table fun _ => rfl
      have hdef : Defines scope' (s.1 ++ "\x7d;\n")
          ((numbered t.toStem.text (t.toStem.count s.2),
            .files (files.map (FileDict.entry tree dir))) :: scope') := by
        have hfront : Reads "static const CodecModInfo::File " Kind.files.front := by decide
        rw [htext, t.stem_eq, t.index_eq, ← hindex]
        exact defines_lines htable hfresh hfront t.toStem.isWord rfl
      have hlookup : List.lookup (numbered t.toStem.text (t.toStem.count s.2))
          ((numbered t.toStem.text (t.toStem.count s.2),
            Value.files (files.map (FileDict.entry tree dir))) :: scope')
          = some (.files (files.map (FileDict.entry tree dir))) := List.lookup_cons_self
      have harray := denotesArray_numbered hlookup (show Value.asFiles _ = some _ from rfl)
      rw [List.length_map] at harray
      have htracked' := htracked.allocateTable t hdef
      refine ⟨_, ?_, hext.trans (extends_cons hfresh _), harray⟩
      cases t <;> exact htracked'

end AppleALC.ResourceConverter
