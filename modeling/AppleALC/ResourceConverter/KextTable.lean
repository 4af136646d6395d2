import Mathlib.Tactic.MkIffOfInductiveProp
import AppleALC.ResourceConverter.PatchTables

/-!
# The kext table

`generateKexts` defines the paths of every kext while it collects the entries of `kextList`, which
point to these paths, and returns the slot of every kext.

* `KextDict.Valid` — the names of the kext can be written;
* `KextsDone` — the invariant of the loop;
* `generateKexts_spec` — the table, and the slots that are returned.
-/

namespace AppleALC.ResourceConverter

open Numeral SourceText Initializer Definitions OutputMachine

variable {tree : ResourceTree} {others : List String} {c : Converter}
variable {scope scope' : Scope String Value}

/-- A kext whose names need no escaping. -/
@[mk_iff]
structure KextDict.Valid (kext : KextDict) : Prop where
  id : IsPlain kext.id
  constant : IsNamePart (normKextID kext.id)
  paths : ∀ path ∈ kext.paths, IsPlain path

instance (kext : KextDict) : Decidable kext.Valid :=
  decidable_of_iff _ kext.valid_iff.symm

/-! ### One kext -/

/-- The paths of one kext. -/
theorem defines_kextPath {index : ℕ} (hfresh : numbered "kextPath" index ∉ scope.names)
    {paths : List String} (hpaths : ∀ path ∈ paths, IsPlain path) :
    Defines scope (makeStringList "kextPath" index paths)
      ((numbered "kextPath" index, .strings paths) :: scope) := by
  have hitems : List.Forall₂ (Denotes scope fun _ => readString) (paths.map quoted) paths := by
    rw [List.forall₂_map_left_iff, List.forall₂_same]
    exact fun path hpath => denotes_quoted scope (hpaths path hpath)
  have hbody : DenotesTable scope .strings
      ((paths.map quoted).foldl (fun str item => str ++ item ++ ", ") "") (.strings paths) :=
    (denotesAll_items hitems).table fun _ => rfl
  exact defines_list hbody hfresh (by decide) (by decide) rfl

/-- The `KextId` constant of one kext is no table. -/
theorem defines_kextId {kext : KextDict} (hkext : kext.Valid) (index : ℕ) :
    Defines scope (kextIdText index kext) scope := by
  have hfront : Reads "__attribute__((unused))\nconst size_t " [.word "__attribute__", .punct '(',
      .punct '(', .word "unused", .punct ')', .punct ')', .word "const", .word "size_t"] := by decide
  have hname : IsWord ("KextId" ++ normKextID kext.id) :=
    IsWord.append (by decide) hkext.constant
  have hequals : Reads " = " [.punct '='] := by decide
  have hend : Reads ";\n" [.punct ';'] := by decide
  have hleft := (hfront.append_spells hname.spells).append hequals ⟨' ', ['=', ' '], rfl, rfl⟩
  have htext := (hleft.append_spells (isWord_decimal index).spells).append hend
    ⟨';', ['\n'], rfl, rfl⟩
  have hheader : IsHeader ([.word "__attribute__", .punct '(', .punct '(', .word "unused",
      .punct ')', .punct ')', .word "const", .word "size_t"]
      ++ [.word ("KextId" ++ normKextID kext.id)] ++ [.punct '='] ++ [.word (decimal index)]) := by
    simp [IsHeader]
  exact ⟨_, ⟨_, htext, declares_plain hheader⟩, resolve_ignored rfl⟩

/-- The entry of one kext, whose paths are in scope. -/
theorem denotesAll_kext {kext : KextDict} (hkext : kext.Valid) {index : ℕ}
    (hpaths : scope.lookup (numbered "kextPath" index) = some (.strings kext.paths)) :
    DenotesAll scope readKext (kextEntryText index kext) [kext.entry] := by
  obtain ⟨id, hid, hscope1, hread1⟩ := denotes_quoted scope hkext.id
  obtain ⟨paths, num, hnum, hscope2, -, hread2⟩ :=
    denotesArray_table (isWord_numbered (by decide) index)
      ((show Apart "nullptr" "kextPath" by decide).ne (decimal index)).symm hpaths
      (show Value.asStrings (.strings kext.paths) = _ from rfl)
  obtain ⟨loaded, hloaded, hscope3, -⟩ := denotes_bool scope false
  obtain ⟨reloadable, hreloadable, hscope4, hread4⟩ := denotes_bool scope kext.reloadable.isSome
  have hbrace : Reads "\x7b" [.punct '{'] := by decide
  have hbrace' : Reads "\x7d" [.punct '}'] := by decide
  have hbreak : StartsBreak "\x7d" := ⟨'}', [], rfl, rfl⟩
  have hsys := (textItems_pair hloaded hreloadable).lists.braced hbrace hbrace' hbreak
  obtain ⟨user, huser, hscope5, hread5⟩ : ∃ user,
      TextLists (if kext.detect.isSome = true then "true" else "") user ∧ InScope scope user ∧
        (user.head?.bind readBool).getD false = kext.detect.isSome := by
    rcases hdetect : kext.detect.isSome with _ | _
    · exact ⟨[], textTerminated_nil.lists, inScope_nil, rfl⟩
    · obtain ⟨flag, hflag, hscope, hread⟩ := denotes_bool scope true
      refine ⟨[flag], hflag.lists, hscope, ?_⟩
      have hbool : readBool flag = some true := hread scope (Extends.refl scope)
      show ((readBool flag).getD false) = true
      rw [hbool]
      rfl
  have huser' := huser.braced hbrace hbrace' hbreak
  have hunloaded : Spells "KernelPatcher::KextInfo::Unloaded"
      (qualified ["KernelPatcher", "KextInfo", "Unloaded"]) :=
    Or.inr ⟨"Unloaded".toList, by decide, by decide⟩
  have hlast := textItems_expression hunloaded (by decide)
  have hscope6 : InScope scope [.leaf (qualified ["KernelPatcher", "KextInfo", "Unloaded"])] :=
    inScope_leaf (by decide)
  have hbody := textItems_fields (List.cons_ne_nil _ _)
    (.cons hid (.cons hnum (.cons hsys (.cons huser' (.cons hlast .nil)))))
  refine denotesAll_entry hbody endsEntry_line (hscope1.append (hscope2.append
    ((hscope3.append hscope4).braces.append (hscope5.braces.append hscope6)))) fun scope' hext => ?_
  have h1 := hread1 scope' hext
  have h2 := hread2 scope' hext
  have h4 := hread4 scope' hext
  show readKext scope' (.braces [id, paths, num, .braces [loaded, reloadable], .braces user, _]) = _
  simp only [readKext, h1, h2, h4, hread5, Option.bind_eq_bind, Option.bind_some, Option.getD_some]
  rfl

/-! ### The kext loop -/

def pathNames : ℕ → List String
  | 0 => []
  | n + 1 => numbered "kextPath" n :: pathNames n

theorem mem_pathNames {n : ℕ} {name : String} (h : name ∈ pathNames n) :
    ∃ i, i < n ∧ name = numbered "kextPath" i := by
  induction n with
  | zero => exact absurd h List.not_mem_nil
  | succ n ih =>
      rcases List.mem_cons.mp h with rfl | h
      · exact ⟨n, Nat.lt_succ_self n, rfl⟩
      · obtain ⟨i, hi, hname⟩ := ih h
        exact ⟨i, Nat.lt_succ_of_lt hi, hname⟩

theorem kextPath_not_mem (n : ℕ) : numbered "kextPath" n ∉ pathNames n := by
  intro h
  obtain ⟨i, hi, heq⟩ := mem_pathNames h
  rw [numbered_injective heq] at hi
  exact absurd hi (Nat.lt_irrefl i)

theorem not_mem_pathNames {name : String} (h : Apart name "kextPath") (n : ℕ) :
    name ∉ pathNames n := by
  intro hmem
  obtain ⟨i, -, heq⟩ := mem_pathNames hmem
  exact h.ne (decimal i) heq

/-- Names that no numbered name can be. -/
theorem Stem.ne_of_apart {start : String} (h : ∀ s : Stem, Apart start s.text) (rest : String)
    (s : Stem) (i : ℕ) : start ++ rest ≠ numbered s.text i := (h s).append_ne rest (decimal i)

/-- What the kext loop has collected after the entries `done`. -/
def KextsDone (tree : ResourceTree) (c : Converter) (done : List (String × KextDict))
    (s : KextSections) : Prop :=
  ∃ scope body, Tracks tree (pathNames done.length) (c.output ++ s.kextPathsSection) c scope ∧
    s.kextSection = "KernelPatcher::KextInfo ADDPR(" ++ "kextList" ++ ")[] \x7b\n" ++ body ∧
    DenotesAll scope readKext body (done.map fun kext => kext.2.entry) ∧
    s.kextIndex = done.length ∧ s.kextNums = (done.map Prod.fst).zipIdx

theorem KextsDone.step {done : List (String × KextDict)} {s : KextSections}
    (h : KextsDone tree c done s) {kext : String × KextDict} (hkext : kext.2.Valid) :
    KextsDone tree c (done ++ [kext]) (kextStep s kext) := by
  obtain ⟨scope, body, htracks, htext, hbody, hindex, hnums⟩ := h
  have hapart : ∀ (t : Stem) (i : ℕ), numbered "kextPath" s.kextIndex ≠ numbered t.text i :=
    Stem.ne_of_apart (fun t => by cases t <;> decide) _
  have hfresh : numbered "kextPath" s.kextIndex ∉ scope.names := by
    refine htracks.fresh_other ?_ hapart
    rw [hindex]
    exact kextPath_not_mem done.length
  have hpaths := defines_kextPath hfresh hkext.paths
  have hboth := hpaths.append (defines_kextId hkext s.kextIndex)
  have htracks' := htracks.named hboth hfresh hapart
  have hentry : DenotesAll _ readKext _ ([kext].map fun kext => kext.2.entry) :=
    denotesAll_kext hkext (show List.lookup (numbered "kextPath" s.kextIndex)
      ((numbered "kextPath" s.kextIndex, .strings kext.2.paths) :: scope) = _
      from List.lookup_cons_self)
  have htable := (hbody.mono (extends_cons hfresh _)).append hentry
  rw [← List.map_append] at htable
  refine ⟨_, _, ?_, ?_, htable, ?_, ?_⟩
  · have hnames : pathNames (done ++ [kext]).length
        = numbered "kextPath" s.kextIndex :: pathNames done.length := by
      rw [List.length_append, List.length_singleton, hindex]
      rfl
    rw [hnames]
    show Tracks tree _ (c.output ++ (s.kextPathsSection ++ _ ++ _)) c _
    have hassoc : ∀ a b x y : String, a ++ (b ++ x ++ y) = a ++ b ++ (x ++ y) := by
      intro a b x y
      simp only [String.append_assoc]
    rw [hassoc]
    exact htracks'
  · show s.kextSection ++ _ = _
    rw [htext, String.append_assoc]
  · show s.kextIndex + 1 = _
    rw [hindex, List.length_append, List.length_singleton]
  · show s.kextNums ++ _ = _
    rw [hnums, hindex, List.map_append, List.zipIdx_append, List.length_map, Nat.zero_add]
    rfl

theorem lookup_zipIdx {name : String} {names : List String} (h : name ∈ names) (start : ℕ) :
    (names.zipIdx start).lookup name = some (start + names.idxOf name) := by
  induction names generalizing start with
  | nil => exact absurd h List.not_mem_nil
  | cons first names ih =>
      by_cases hname : name = first
      · subst hname
        rw [List.zipIdx_cons, List.lookup_cons_self, List.idxOf_cons_self]
        rfl
      · rw [List.zipIdx_cons, List.lookup_cons, beq_false_of_ne hname,
          List.idxOf_cons_ne _ (Ne.symm hname)]
        have hrest := ih ((List.mem_cons.mp h).resolve_left hname) (start + 1)
        rw [hrest]
        exact congrArg some
          (show start + 1 + names.idxOf name = start + (names.idxOf name + 1) from by omega)

/-- **`generateKexts`** defines `kextList` with an entry for every kext, and returns their slots. -/
theorem generateKexts_spec (h : Tracked tree [] c []) {kexts : List (String × KextDict)}
    (hvalid : ∀ kext ∈ kexts, kext.2.Valid) :
    ∃ scope, Tracked tree ("kextListSize" :: "kextList" :: pathNames kexts.length)
        (generateKexts kexts c).2 scope ∧
      scope.lookup "kextList" = some (.kexts (kexts.map fun kext => kext.2.entry)) ∧
      scope.lookup "kextListSize" = some (.size kexts.length) ∧
      KextSlots kexts (generateKexts kexts c).1 scope := by
  have hstart : KextsDone tree c [] {} := by
    refine ⟨[], "", ?_, ?_, denotesAll_nil, rfl, rfl⟩
    · exact h.nothing (by decide)
    · decide
  have hdone := foldl_invariant (f := kextStep) kexts hstart fun done kext rest _ hsplit hdone =>
    hdone.step (hvalid kext (hsplit ▸ List.mem_append_cons_self))
  generalize hs : kexts.foldl kextStep {} = s at hdone
  obtain ⟨scope, body, htracks, htext, hbody, -, hnums⟩ := hdone
  have htable : DenotesTable scope .kexts body (.kexts (kexts.map fun kext => kext.2.entry)) :=
    hbody.table fun _ => rfl
  have hlist : "kextList" ∉ pathNames kexts.length := not_mem_pathNames (by decide) _
  have hsize : "kextListSize" ∉ "kextList" :: pathNames kexts.length :=
    List.not_mem_cons_of_ne_of_not_mem (by decide) (not_mem_pathNames (by decide) _)
  obtain ⟨scope', htracks', hext, hlookup, hlength⟩ := htracks.exported kexts.length htable
    (show Reads "KernelPatcher::KextInfo ADDPR(" _ by decide) rfl (by decide) (by decide) hlist hsize
    (fun t => by cases t <;> decide) (fun t => by cases t <;> decide)
  refine ⟨scope', ?_, hlookup, hlength, ⟨_, hlookup, List.length_map _⟩, ?_⟩
  · have htext' : (generateKexts kexts c).2.output = c.output ++ s.kextPathsSection
        ++ ("KernelPatcher::KextInfo ADDPR(" ++ "kextList" ++ ")[] \x7b\n" ++ body ++ "\x7d;\n"
          ++ sizeText "kextListSize" kexts.length) := by
      simp only [generateKexts]
      rw [hs, ← htext]
      rfl
    show Tracks tree _ _ _ _
    rw [htext']
    simp only [generateKexts]
    exact (htracks'.appendFile _).appendFile _
  · intro name hname
    simp only [generateKexts]
    rw [hs, hnums, lookup_zipIdx hname, Nat.zero_add]

end AppleALC.ResourceConverter
