import AppleALC.ResourceConverter.Tracks

/-!
# Patch tables

The bytes of patches go to buffers that are shared: a buffer is looked up by its content and defined
only when no earlier patch of any codec or controller had the same content.  The definitions of new
buffers wait while the table of a codec is collected, and are written before it.  Since a hit
compares whole contents, the two names in a patch entry denote the bytes of that patch.

* `KextSlots` — the slots of the kexts are in the scope;
* `patchBufStep_spec` — one buffer, found or new;
* `generatePatches_spec` — the table of patches.
-/

namespace AppleALC.ResourceConverter

open Numeral SourceText Initializer Definitions OutputMachine

variable {tree : ResourceTree} {others : List String} {c : Converter}
variable {scope scope' : Scope String Value}
variable {kexts : List (String × KextDict)} {kextIndexes : List (String × ℕ)}

/-! ### Buffers -/

/-- A buffer definition. -/
theorem defines_patchBuf {index : ℕ} (hfresh : numbered "patchBuf" index ∉ scope.names)
    (patchBuf : List UInt8) :
    Defines scope (patchBufText index patchBuf)
      ((numbered "patchBuf" index, .bytes patchBuf) :: scope) := by
  have hitems : List.Forall₂ (Denotes scope fun _ => readUInt8) (patchBuf.map hexByte) patchBuf := by
    rw [List.forall₂_map_left_iff, List.forall₂_same]
    exact fun b _ => denotes_hexByte scope b
  have hbody : DenotesTable scope .bytes
      ((patchBuf.map hexByte).foldl (fun str item => str ++ item ++ ", ") "") (.bytes patchBuf) :=
    (denotesAll_items hitems).table fun _ => rfl
  exact defines_list hbody hfresh (by decide) (by decide) rfl

/-- **One turn of the buffer loop**: the index it ends up with is that of a buffer with this content,
whether it was there or is new. -/
theorem patchBufStep_spec {s : PatchText}
    (h : Tracks tree others (s.c.output ++ s.pbStr) s.c scope) (patchBuf : List UInt8) :
    ∃ scope', Tracks tree others
        ((patchBufStep s patchBuf).2.c.output ++ (patchBufStep s patchBuf).2.pbStr)
        (patchBufStep s patchBuf).2.c scope' ∧
      Extends scope scope' ∧
      scope'.lookup (numbered "patchBuf" (patchBufStep s patchBuf).1) = some (.bytes patchBuf) ∧
      (patchBufStep s patchBuf).2.pStr = s.pStr ∧
      (patchBufStep s patchBuf).2.c.patchIndex = s.c.patchIndex := by
  rcases hhit : lookupPatchBufIndex s.c patchBuf with _ | index
  · have hfresh : numbered "patchBuf" s.c.patchBufIndex ∉ scope.names := h.fresh .patchBuf
    have hdef := defines_patchBuf hfresh patchBuf
    have hstep : patchBufStep s patchBuf = (s.c.patchBufIndex,
        { s with
          pbStr := s.pbStr ++ patchBufText s.c.patchBufIndex patchBuf
          c := storePatchBufIndex { s.c with patchBufIndex := s.c.patchBufIndex + 1 } patchBuf
            s.c.patchBufIndex }) := by
      simp only [patchBufStep, hhit]
    rw [hstep]
    refine ⟨_, ?_, extends_cons hfresh _, List.lookup_cons_self, rfl, rfl⟩
    show Tracks tree others (s.c.output ++ (s.pbStr ++ _)) _ _
    rw [← String.append_assoc]
    refine h.allocate .patchBuf hdef (Nat.lt_succ_self _) ?_ (fun _ _ hi => Or.inl hi) ?_
    · intro t
      cases t <;> first | exact Nat.le_refl _ | exact Nat.le_succ _
    · intro patch i hi
      replace hi :
          List.lookup patch ((patchBuf, s.c.patchBufIndex) :: s.c.patchBufMap) = some i := hi
      by_cases hp : patch = patchBuf
      · subst hp
        rw [List.lookup_cons_self, Option.some.injEq] at hi
        exact Or.inr ⟨rfl, hi.symm, rfl⟩
      · rw [List.lookup_cons, beq_false_of_ne hp] at hi
        exact Or.inl hi
  · have hlookup := h.buffers patchBuf index hhit
    have hstep : patchBufStep s patchBuf = (index, s) := by
      simp only [patchBufStep, hhit]
    rw [hstep]
    exact ⟨scope, h, Extends.refl scope, hlookup, rfl, rfl⟩

/-! ### Entries -/

/-- `kextIndexes` holds the slot of every kext, and `kextList` is in scope with all slots. -/
structure KextSlots (kexts : List (String × KextDict)) (kextIndexes : List (String × ℕ))
    (scope : Scope String Value) : Prop where
  list : ∃ entries, scope.lookup "kextList" = some (.kexts entries) ∧ entries.length = kexts.length
  slots : ∀ name ∈ kexts.map Prod.fst,
    kextIndexes.lookup name = some ((kexts.map Prod.fst).idxOf name)

theorem KextSlots.mono (h : KextSlots kexts kextIndexes scope) (hext : Extends scope scope') :
    KextSlots kexts kextIndexes scope' where
  list := by
    obtain ⟨entries, hlookup, hlen⟩ := h.list
    exact ⟨entries, hext _ _ hlookup, hlen⟩
  slots := h.slots

/-- A patch that the converter can write: lengths that match, and a kext of `Kexts.plist`. -/
def PatchDict.Valid (kexts : List (String × KextDict)) (p : PatchDict) : Prop :=
  p.find.length = p.replace.length ∧ p.name ∈ kexts.map Prod.fst

instance (p : PatchDict) : Decidable (p.Valid kexts) := inferInstanceAs (Decidable (_ ∧ _))

/-- The pointer to the slot of a kext. -/
theorem denotes_kextSlot (h : KextSlots kexts kextIndexes scope) {name : String}
    (hname : name ∈ kexts.map Prod.fst) :
    Denotes scope readKextSlot (kextSlotText kextIndexes name)
      ((kexts.map Prod.fst).idxOf name) := by
  generalize hi : (kexts.map Prod.fst).idxOf name = i
  have hlt : i < kexts.length := by
    rw [← hi, ← List.length_map (f := Prod.fst)]
    exact List.idxOf_lt_length_of_mem hname
  have htext : kextSlotText kextIndexes name = "&ADDPR(kextList)[" ++ decimal i ++ "]" := by
    show "&ADDPR(kextList)[" ++ (kextIndexes.lookup name).elim "(null)" decimal ++ "]" = _
    rw [h.slots name hname, hi, Option.elim_some]
  have hfront : Reads "&ADDPR(kextList)[" [.punct '&', .word "ADDPR", .punct '(',
      .word "kextList", .punct ')', .punct '['] := by decide
  have hback : Reads "]" [.punct ']'] := by decide
  have hspells := ((hfront.append_spells (isWord_decimal i).spells).append hback
    ⟨']', [], rfl, rfl⟩).spells
  obtain ⟨entries, hlookup, hlen⟩ := h.list
  refine ⟨.leaf [.punct '&', .word "ADDPR", .punct '(', .word "kextList", .punct ')', .punct '[',
    .word (decimal i), .punct ']'], ?_, ?_, ?_⟩
  · rw [htext]
    exact textItems_expression hspells (by simp [IsExpression])
  · intro u hu
    have hword : u ∈ ["ADDPR", "kextList", decimal i] := (List.mem_filter.mp hu).1
    have hid : isIdentifier u = true := (List.mem_filter.mp hu).2
    simp only [List.mem_cons, List.not_mem_nil, or_false] at hword
    rcases hword with rfl | rfl | rfl
    · exact absurd hid (by decide)
    · exact mem_names_iff.mpr ⟨_, hlookup⟩
    · rw [not_isIdentifier_decimal] at hid
      exact absurd hid Bool.false_ne_true
  · intro scope' hext
    show (Numeral.read (decimal i)).bind (fun i =>
      ((scope'.lookup "kextList").bind Value.asKexts).bind fun kexts =>
        if i < kexts.length then some i else none) = some i
    rw [read_decimal, hext _ _ hlookup, Option.bind_some, Option.bind_some]
    show (if i < entries.length then some i else none) = some i
    rw [if_pos (show i < entries.length by omega)]

/-- The name of a buffer in scope. -/
theorem denotes_patchBuf {i : ℕ} {bytes : List UInt8}
    (h : scope.lookup (numbered "patchBuf" i) = some (.bytes bytes)) :
    Denotes scope (fun scope => readPointer scope Value.asBytes) (numbered "patchBuf" i) bytes := by
  refine ⟨.leaf [.word (numbered "patchBuf" i)], textItems_word (isWord_numbered (by decide) i),
    inScope_word (mem_names_iff.mpr ⟨_, h⟩), fun scope' hext => ?_⟩
  show (scope'.lookup (numbered "patchBuf" i)).bind Value.asBytes = some bytes
  rw [hext _ _ h]
  rfl

/-- The entry of one patch. -/
theorem denotesAll_patch (hslots : KextSlots kexts kextIndexes scope) {p : PatchDict}
    (hp : p.Valid kexts) {find replace : ℕ}
    (hfind : scope.lookup (numbered "patchBuf" find) = some (.bytes p.find))
    (hreplace : scope.lookup (numbered "patchBuf" replace) = some (.bytes p.replace)) :
    DenotesAll scope readPatch (patchEntryText kextIndexes p find replace) [p.entry kexts] := by
  obtain ⟨kext, hkext, hscope1, hread1⟩ := denotes_kextSlot hslots hp.2
  obtain ⟨f, hf, hscope2, hread2⟩ := denotes_patchBuf hfind
  obtain ⟨r, hr, hscope3, hread3⟩ := denotes_patchBuf hreplace
  obtain ⟨size, hsize, hscope4, hread4⟩ := denotes_decimal scope p.find.length
  obtain ⟨count, hcount, hscope5, hread5⟩ := denotes_decimal scope (p.count.getD 0)
  obtain ⟨min, hmin, hscope6, hread6⟩ := denotes_kernel scope p.minKernel
  obtain ⟨max, hmax, hscope7, hread7⟩ := denotes_kernel scope p.maxKernel
  have hinner := (textItems_fields (List.cons_ne_nil _ _)
    (.cons hkext (.cons hf (.cons hr (.cons hsize (.cons hcount .nil)))))).lists.braced
      (show Reads "\x7b " [.punct '{'] by decide) (show Reads " \x7d" [.punct '}'] by decide)
      ⟨' ', ['}'], rfl, rfl⟩
  have hbody := textItems_fields (List.cons_ne_nil _ _) (.cons hinner (.cons hmin (.cons hmax .nil)))
  have hscope := (hscope1.append (hscope2.append (hscope3.append (hscope4.append hscope5)))).braces
  refine denotesAll_entry hbody endsEntry_line (hscope.append (hscope6.append hscope7))
    fun scope' hext => ?_
  have h1 := hread1 scope' hext
  have h2 := hread2 scope' hext
  have h3 := hread3 scope' hext
  have h4 := hread4 scope' hext
  have h5 := hread5 scope' hext
  have h6 := hread6 scope' hext
  have h7 := hread7 scope' hext
  show readPatch scope' (.braces [.braces [kext, f, r, size, count], min, max]) = _
  simp only [readPatch, h1, h2, h3, h4, h5, h6, h7, Option.bind_eq_bind, Option.bind_some]
  rw [if_pos ⟨trivial, hp.1.symm⟩]
  rfl

/-! ### A patch table -/

/-- What the patch loop has collected after the entries `done`. -/
def PatchesDone (tree : ResourceTree) (others : List String) (kexts : List (String × KextDict))
    (c : Converter) (scope : Scope String Value) (done : List PatchDict) (s : PatchText) : Prop :=
  ∃ scope' body, Tracks tree others (s.c.output ++ s.pbStr) s.c scope' ∧ Extends scope scope' ∧
    s.pStr = "static KextPatch " ++ numbered "patches" c.patchIndex ++ "[] \x7b\n" ++ body ∧
    DenotesAll scope' readPatch body (done.map (PatchDict.entry kexts)) ∧
    s.c.patchIndex = c.patchIndex

theorem PatchesDone.step {done : List PatchDict} {s : PatchText}
    (h : PatchesDone tree others kexts c scope done s) (hslots : KextSlots kexts kextIndexes scope)
    {p : PatchDict} (hp : p.Valid kexts) :
    PatchesDone tree others kexts c scope (done ++ [p]) (patchStep kextIndexes s p) := by
  obtain ⟨scope', body, htracks, hext, htext, hbody, hindex⟩ := h
  obtain ⟨scope1, htracks1, hext1, hfind, htext1, hindex1⟩ := patchBufStep_spec htracks p.find
  obtain ⟨scope2, htracks2, hext2, hreplace, htext2, hindex2⟩ :=
    patchBufStep_spec htracks1 p.replace
  have hentry : DenotesAll scope2 readPatch _ ([p].map (PatchDict.entry kexts)) :=
    denotesAll_patch (hslots.mono (hext.trans (hext1.trans hext2))) hp (hext2 _ _ hfind) hreplace
  have htable := (hbody.mono (hext1.trans hext2)).append hentry
  rw [← List.map_append] at htable
  have hstep : patchStep kextIndexes s p =
      { (patchBufStep (patchBufStep s p.find).2 p.replace).2 with
        pStr := (patchBufStep (patchBufStep s p.find).2 p.replace).2.pStr
          ++ patchEntryText kextIndexes p (patchBufStep s p.find).1
              (patchBufStep (patchBufStep s p.find).2 p.replace).1 } := by
    rw [patchStep, if_neg (not_not.mpr hp.1)]
  rw [hstep]
  refine ⟨scope2, _, htracks2, hext.trans (hext1.trans hext2), ?_, htable, ?_⟩
  · show (patchBufStep (patchBufStep s p.find).2 p.replace).2.pStr ++ _ = _
    rw [htext2, htext1, htext, String.append_assoc]
  · exact hindex2.trans (hindex1.trans hindex)

/-- **`generatePatches`** returns text that denotes the entries of the array. -/
theorem generatePatches_spec (h : Tracked tree others c scope)
    (hslots : KextSlots kexts kextIndexes scope) (patches : Option (List PatchDict))
    (hvalid : ∀ p ∈ patches.getD [], p.Valid kexts) :
    ∃ scope', Tracked tree others (generatePatches patches kextIndexes c).2 scope' ∧
      Extends scope scope' ∧
      DenotesArray scope' Value.asPatches (generatePatches patches kextIndexes c).1
        (patches.map fun ps => ps.map (PatchDict.entry kexts)) := by
  cases patches with
  | none => exact ⟨scope, h, Extends.refl scope, denotesArray_null _⟩
  | some patches =>
      have hstart : PatchesDone tree others kexts c scope []
          { pStr := "static KextPatch " ++ numbered "patches" c.patchIndex ++ "[] \x7b\n"
            c := c } := by
        refine ⟨scope, "", ?_, Extends.refl scope, by rw [String.append_empty], denotesAll_nil, rfl⟩
        show Tracks tree others (c.output ++ "") c scope
        rw [String.append_empty]
        exact h
      have hdone := foldl_invariant patches hstart (f := patchStep kextIndexes)
        fun done p rest _ hsplit hdone =>
          hdone.step hslots (hvalid p (hsplit ▸ List.mem_append_cons_self))
      simp only [generatePatches]
      generalize patches.foldl (patchStep kextIndexes)
        { pStr := "static KextPatch " ++ numbered "patches" c.patchIndex ++ "[] \x7b\n", c := c } = s
        at hdone
      obtain ⟨scope', body, htracks, hext, htext, hbody, hindex⟩ := hdone
      have hfresh : numbered "patches" s.c.patchIndex ∉ scope'.names := htracks.fresh .patches
      have htable : DenotesTable scope' .patches body
          (.patches (patches.map (PatchDict.entry kexts))) :=
        hbody.table fun _ => rfl
      have hdef : Defines scope' (s.pStr ++ "\x7d;\n")
          ((numbered "patches" s.c.patchIndex, .patches (patches.map (PatchDict.entry kexts)))
            :: scope') := by
        have hfront : Reads "static KextPatch " Kind.patches.front := by decide
        rw [htext, ← hindex]
        exact defines_lines htable hfresh hfront (by decide) rfl
      have hlookup : List.lookup (numbered "patches" s.c.patchIndex)
          ((numbered "patches" s.c.patchIndex,
            Value.patches (patches.map (PatchDict.entry kexts))) :: scope')
          = some (.patches (patches.map (PatchDict.entry kexts))) := List.lookup_cons_self
      have harray := denotesArray_numbered (s := .patches) hlookup
        (show Value.asPatches _ = some _ from rfl)
      rw [List.length_map] at harray
      refine ⟨_, ?_, hext.trans (extends_cons hfresh _), harray⟩
      refine htracks.allocate .patches hdef (Nat.lt_succ_self _) ?_ (fun _ _ hi => Or.inl hi)
        (fun _ _ hi => Or.inl hi)
      intro t
      cases t <;> first | exact Nat.le_refl _ | exact Nat.le_succ _

end AppleALC.ResourceConverter
