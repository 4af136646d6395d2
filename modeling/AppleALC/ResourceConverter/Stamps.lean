import AppleALC.ResourceConverter.GenerateScript

/-!
# Stamps

The lines `md5` leaves beside the resources, and what they say after the files have been packed and
formatted.  Each script has one lemma that says what it may do, its frame, and what becomes of the
stamps; `xargs` then carries all of these over every file.

* `packScript_cases` / `formatScript_cases` — what one script may do;
* `Frame` / `formatted_frame` — what packing and formatting leave alone;
* `Stamped` / `formatted_stamped` — what the stamps say;
* `GenerateRun.Sound` — what a run must not meet;
* `refreshed` / `xargs_packScript` — what the scripts leave when nothing fails.
-/

namespace AppleALC.ResourceConverter

/-! ### The scripts -/

theorem SourceFile.name_injective {f g : SourceFile} (h : f.name = g.name) : f = g := by
  have hchars := congrArg String.toList h
  have hlast := congrArg List.getLast? hchars
  cases f <;> cases g <;> simp [SourceFile.name] at hchars hlast ⊢
  · exact String.toList_injective hchars
  · exact String.toList_injective hchars

theorem xml_ne_plist (path other : String) : SourceFile.xml path ≠ .plist other := nofun

section Xargs

variable {script : String → BuildFiles → BuildFiles × Bool} {P : BuildFiles → Prop}

/-- What every script preserves, all of them preserve. -/
theorem xargs_invariant (hstep : ∀ path s, P s → P (script path s).1) (paths : List String)
    {s : BuildFiles} (hs : P s) : P (xargs script paths s).1 := by
  induction paths generalizing s with
  | nil => exact hs
  | cons path paths ih => exact ih (hstep path s hs)

/-- If none fails, it is enough that the scripts preserve it when they do not fail. -/
theorem xargs_invariant_of_ok (hstep : ∀ path s, (script path s).2 = true → P s → P (script path s).1)
    {paths : List String} {s : BuildFiles} (hok : (xargs script paths s).2 = true) (hs : P s) :
    P (xargs script paths s).1 := by
  induction paths generalizing s with
  | nil => exact hs
  | cons path paths ih =>
      rw [xargs, Bool.and_eq_true] at hok
      exact ih hok.2 (hstep path s hok.1 hs)

/-- If none fails, every script has done its work in the end. -/
theorem xargs_done {Q : String → BuildFiles → Prop}
    (hdone : ∀ path s, (script path s).2 = true → Q path (script path s).1)
    (hkeep : ∀ path other s, (script path s).2 = true → Q other s → Q other (script path s).1)
    {paths : List String} {s : BuildFiles} (hok : (xargs script paths s).2 = true) :
    ∀ path ∈ paths, Q path (xargs script paths s).1 := by
  induction paths generalizing s with
  | nil => exact fun path hpath => absurd hpath List.not_mem_nil
  | cons first paths ih =>
      rw [xargs, Bool.and_eq_true] at hok
      intro path hpath
      rcases List.mem_cons.mp hpath with rfl | hpath
      · have hpath : Q path (script path s).1 := hdone path s hok.1
        have hrest := xargs_invariant_of_ok (fun p t => hkeep p path t) hok.2 hpath
        exact hrest
      · exact ih hok.2 path hpath

/-- If no script can fail, none does. -/
theorem xargs_ok (hok : ∀ path s, (script path s).2 = true) (paths : List String) (s : BuildFiles) :
    (xargs script paths s).2 = true := by
  induction paths generalizing s with
  | nil => rfl
  | cons path paths ih => rw [xargs, Bool.and_eq_true]; exact ⟨hok path s, ih _⟩

end Xargs

variable {T : Tools}

/-- What the script for one file does: nothing, because the stamp is that of the file; what the tool
does when it fails; or what it does when it succeeds, and the stamp. -/
theorem stampScript_cases (T : Tools) (file : SourceFile) (hasOutput : Bool)
    (process : String → BuildFiles × Bool) (s : BuildFiles) :
    (stampScript T file hasOutput process s = (s, true) ∧
      ∀ content, s.content file = some content →
        s.stamp file = some (T.md5 file.name content)) ∨
    ∃ content, s.content file = some content ∧
      (((process content).2 = false ∧
          stampScript T file hasOutput process s = ((process content).1, false)) ∨
        ((process content).2 = true ∧ stampScript T file hasOutput process s =
          ({ (process content).1 with
              stamp := Function.update (process content).1.stamp file
                (some (T.md5 file.name content)) }, true))) := by
  unfold stampScript
  split
  · next hnone => exact Or.inl ⟨rfl, fun content hc => absurd (hnone.symm.trans hc) nofun⟩
  · next content hcontent =>
    simp only
    split
    · next hfresh =>
      refine Or.inl ⟨rfl, ?_⟩
      intro c hc
      rw [← Option.some.inj (hcontent.symm.trans hc)]
      exact hfresh.2
    · refine Or.inr ⟨content, hcontent, ?_⟩
      split
      · next hok => exact Or.inr ⟨hok, rfl⟩
      · next hno => exact Or.inl ⟨Bool.eq_false_of_not_eq_true hno, rfl⟩

/-- A file whose stamp is right is passed over. -/
theorem stampScript_of_fresh {file : SourceFile} {hasOutput : Bool}
    (process : String → BuildFiles × Bool) {s : BuildFiles}
    (hfresh : ∀ content, s.content file = some content →
      hasOutput = true ∧ s.stamp file = some (T.md5 file.name content)) :
    stampScript T file hasOutput process s = (s, true) := by
  unfold stampScript
  split
  · rfl
  · next content hcontent => exact if_pos (hfresh content hcontent)

/-- What one script of `zlib_pack.command` does. -/
theorem packScript_cases (T : Tools) (failure : String → Option (List UInt8)) (path : String)
    (s : BuildFiles) :
    (packScript T failure path s = (s, true) ∧
      ∀ content, s.content (.xml path) = some content →
        s.stamp (.xml path) = some (T.md5 (SourceFile.xml path).name content)) ∨
    (∃ left, failure path = some left ∧ packScript T failure path s =
      ({ s with zlib := Function.update s.zlib path (some left) }, false)) ∨
    ∃ content, s.content (.xml path) = some content ∧ packScript T failure path s =
      ({ s with
          zlib := Function.update s.zlib path (some (T.deflate content))
          stamp := Function.update s.stamp (.xml path)
            (some (T.md5 (SourceFile.xml path).name content)) }, true) := by
  unfold packScript
  cases failure path with
  | some left =>
      rcases stampScript_cases T (.xml path) (s.zlib path).isSome (fun _ =>
          ({ s with zlib := Function.update s.zlib path (some left) }, false)) s with
        hskip | ⟨content, -, ⟨-, h⟩ | ⟨hok, -⟩⟩
      · exact Or.inl hskip
      · exact Or.inr (Or.inl ⟨left, rfl, h⟩)
      · exact absurd hok nofun
  | none =>
      rcases stampScript_cases T (.xml path) (s.zlib path).isSome (fun content =>
          ({ s with zlib := Function.update s.zlib path (some (T.deflate content)) }, true)) s with
        hskip | ⟨content, hcontent, ⟨hno, -⟩ | ⟨-, h⟩⟩
      · exact Or.inl hskip
      · exact absurd hno nofun
      · exact Or.inr (Or.inr ⟨content, hcontent, h⟩)

/-- What one script of `generate.sh` does. -/
theorem formatScript_cases (T : Tools) (failure : String → Option String) (path : String)
    (s : BuildFiles) :
    (formatScript T failure path s = (s, true) ∧
      ∀ content, s.content (.plist path) = some content →
        s.stamp (.plist path) = some (T.md5 (SourceFile.plist path).name content)) ∨
    (∃ content left, s.content (.plist path) = some content ∧ failure path = some left ∧
      formatScript T failure path s =
        ({ s with content := Function.update s.content (.plist path) (some left) }, false)) ∨
    ∃ content, s.content (.plist path) = some content ∧ formatScript T failure path s =
      ({ s with
          content := Function.update s.content (.plist path) (some (T.format content))
          stamp := Function.update s.stamp (.plist path)
            (some (T.md5 (SourceFile.plist path).name content)) }, true) := by
  unfold formatScript
  cases failure path with
  | some left =>
      rcases stampScript_cases T (.plist path) true (fun _ =>
          ({ s with content := Function.update s.content (.plist path) (some left) }, false)) s with
        hskip | ⟨content, hcontent, ⟨-, h⟩ | ⟨hok, -⟩⟩
      · exact Or.inl hskip
      · exact Or.inr (Or.inl ⟨content, left, hcontent, rfl, h⟩)
      · exact absurd hok nofun
  | none =>
      rcases stampScript_cases T (.plist path) true (fun content => ({ s with
          content := Function.update s.content (.plist path) (some (T.format content)) }, true)) s with
        hskip | ⟨content, hcontent, ⟨hno, -⟩ | ⟨-, h⟩⟩
      · exact Or.inl hskip
      · exact absurd hno nofun
      · exact Or.inr (Or.inr ⟨content, hcontent, h⟩)

/-! ### What the scripts leave alone -/

/-- Neither script makes a resource come or go, changes an `.xml` or touches the output. -/
structure Frame (s s' : BuildFiles) : Prop where
  present : ∀ file, (s'.content file).isSome = (s.content file).isSome
  xml : ∀ path, s'.content (.xml path) = s.content (.xml path)
  kernResources : s'.kernResources = s.kernResources
  resourcesMd5 : s'.resourcesMd5 = s.resourcesMd5

theorem Frame.refl (s : BuildFiles) : Frame s s := ⟨fun _ => rfl, fun _ => rfl, rfl, rfl⟩

theorem Frame.trans {s t u : BuildFiles} (h : Frame s t) (h' : Frame t u) : Frame s u where
  present file := (h'.present file).trans (h.present file)
  xml path := (h'.xml path).trans (h.xml path)
  kernResources := h'.kernResources.trans h.kernResources
  resourcesMd5 := h'.resourcesMd5.trans h.resourcesMd5

theorem packScript_frame (failure : String → Option (List UInt8)) (path : String) (s : BuildFiles) :
    Frame s (packScript T failure path s).1 := by
  rcases packScript_cases T failure path s with ⟨h, -⟩ | ⟨left, -, h⟩ | ⟨content, -, h⟩
  · rw [h]
    exact Frame.refl s
  · rw [h]
    exact ⟨fun _ => rfl, fun _ => rfl, rfl, rfl⟩
  · rw [h]
    exact ⟨fun _ => rfl, fun _ => rfl, rfl, rfl⟩

theorem frame_update {s : BuildFiles} {path old : String} (hold : s.content (.plist path) = some old)
    (new : String) (stamp : SourceFile → Option String) :
    Frame s { s with
      content := Function.update s.content (.plist path) (some new), stamp := stamp } where
  present file := by
    show (Function.update s.content (.plist path) (some new) file).isSome = _
    by_cases hfile : file = .plist path
    · rw [hfile, Function.update_self, hold]
      rfl
    · rw [Function.update_of_ne hfile]
  xml other := by
    show Function.update s.content (.plist path) (some new) (.xml other) = _
    rw [Function.update_of_ne (xml_ne_plist other path)]
  kernResources := rfl
  resourcesMd5 := rfl

theorem formatScript_frame (failure : String → Option String) (path : String) (s : BuildFiles) :
    Frame s (formatScript T failure path s).1 := by
  rcases formatScript_cases T failure path s with ⟨h, -⟩ | ⟨content, left, hc, -, h⟩ |
    ⟨content, hc, h⟩
  · rw [h]
    exact Frame.refl s
  · rw [h]
    exact frame_update hc left s.stamp
  · rw [h]
    exact frame_update hc _ _

theorem packed_frame (r : GenerateRun) (s : BuildFiles) : Frame s (packed T r s).1 :=
  xargs_invariant (fun path t ht => ht.trans (packScript_frame _ path t)) r.xmls (Frame.refl s)

theorem formatted_frame (r : GenerateRun) (s : BuildFiles) : Frame s (formatted T r s).1 :=
  xargs_invariant (fun path t ht => ht.trans (formatScript_frame _ path t)) r.plists
    (packed_frame r s)

/-! ### What the stamps say -/

/-- Every stamp is a sum of its file, and what is packed is what the stamp was taken of. -/
structure Stamped (T : Tools) (s : BuildFiles) : Prop where
  stamp : ∀ file h, s.stamp file = some h → ∃ content, h = T.md5 file.name content
  zlib : ∀ path z, s.zlib path = some z ↔ ∃ content,
    s.stamp (.xml path) = some (T.md5 (SourceFile.xml path).name content) ∧ T.deflate content = z

/-- The `.xml` is packed as it is now. -/
def XmlStamped (T : Tools) (path : String) (s : BuildFiles) : Prop :=
  ∀ content, s.content (.xml path) = some content →
    s.stamp (.xml path) = some (T.md5 (SourceFile.xml path).name content)

/-- The property list says what it said when it was stamped. -/
def PlistStamped (T : Tools) (path : String) (s : BuildFiles) : Prop :=
  ∀ content, s.content (.plist path) = some content → ∃ old,
    s.stamp (.plist path) = some (T.md5 (SourceFile.plist path).name old) ∧
      T.read old = T.read content

/-- No stamp of a property list has outlived its file. -/
def NoOrphan (s : BuildFiles) : Prop :=
  ∀ path, (s.stamp (.plist path)).isSome → (s.content (.plist path)).isSome

theorem stamp_update {s : BuildFiles} (hs : Stamped T s) (file : SourceFile) (content : String) :
    ∀ f h, Function.update s.stamp file (some (T.md5 file.name content)) f = some h →
      ∃ c, h = T.md5 f.name c := by
  intro f h hf
  by_cases hfile : f = file
  · subst hfile
    rw [Function.update_self, Option.some.injEq] at hf
    exact ⟨content, hf.symm⟩
  · rw [Function.update_of_ne hfile] at hf
    exact hs.stamp f h hf

/-- Packing writes the packed file and the stamp of the same content. -/
theorem packScript_stamped (hT : T.Documented) {failure : String → Option (List UInt8)}
    (hfailure : ∀ path, failure path = none) (path : String) (s : BuildFiles) (hs : Stamped T s) :
    Stamped T (packScript T failure path s).1 := by
  rcases packScript_cases T failure path s with ⟨h, -⟩ | ⟨left, hleft, -⟩ | ⟨content, -, h⟩
  · rw [h]
    exact hs
  · exact absurd ((hfailure path).symm.trans hleft) nofun
  · rw [h]
    refine ⟨stamp_update hs (.xml path) content, ?_⟩
    intro other z
    by_cases hother : other = path
    · subst hother
      simp only [Function.update_self, Option.some.injEq]
      constructor
      · intro hz
        exact ⟨content, rfl, hz⟩
      · rintro ⟨c, hc, hz⟩
        rw [(hT.md5_inj hc).2, hz]
    · have hne : SourceFile.xml other ≠ .xml path := fun h => hother (SourceFile.xml.inj h)
      simp only [Function.update_of_ne hother, Function.update_of_ne hne]
      exact hs.zlib other z

theorem formatScript_stamped (failure : String → Option String) (path : String) (s : BuildFiles)
    (hs : Stamped T s) : Stamped T (formatScript T failure path s).1 := by
  rcases formatScript_cases T failure path s with ⟨h, -⟩ | ⟨content, left, -, -, h⟩ | ⟨content, -, h⟩
  · rw [h]
    exact hs
  · rw [h]
    exact ⟨hs.stamp, hs.zlib⟩
  · rw [h]
    refine ⟨stamp_update hs (.plist path) content, ?_⟩
    intro other z
    simp only [Function.update_of_ne (xml_ne_plist other path)]
    exact hs.zlib other z

/-- Packing brings the stamp of its file up to date and leaves the others as they are. -/
theorem packScript_xmlStamped (failure : String → Option (List UInt8)) (path : String)
    (s : BuildFiles) (hok : (packScript T failure path s).2 = true) :
    XmlStamped T path (packScript T failure path s).1 := by
  rcases packScript_cases T failure path s with ⟨h, hfresh⟩ | ⟨left, -, h⟩ | ⟨content, hc, h⟩
  · rw [h]
    exact hfresh
  · rw [h] at hok
    exact absurd hok nofun
  · rw [h]
    intro c hc'
    rw [← Option.some.inj (hc.symm.trans hc')]
    exact Function.update_self _ _ _

theorem packScript_keeps_xmlStamped (failure : String → Option (List UInt8)) (path other : String)
    (s : BuildFiles) (hok : (packScript T failure path s).2 = true) (hs : XmlStamped T other s) :
    XmlStamped T other (packScript T failure path s).1 := by
  by_cases hother : other = path
  · rw [hother]
    exact packScript_xmlStamped failure path s hok
  · rcases packScript_cases T failure path s with ⟨h, -⟩ | ⟨left, -, h⟩ | ⟨content, -, h⟩
    · rw [h]
      exact hs
    · rw [h]
      exact hs
    · rw [h]
      intro c hc
      have hne : SourceFile.xml other ≠ .xml path := fun h => hother (SourceFile.xml.inj h)
      simp only [Function.update_of_ne hne]
      exact hs c hc

theorem formatScript_keeps_xmlStamped (failure : String → Option String) (path other : String)
    (s : BuildFiles) (hs : XmlStamped T other s) :
    XmlStamped T other (formatScript T failure path s).1 := by
  have hxml := (formatScript_frame (T := T) failure path s).xml other
  intro c hc
  rw [hxml] at hc
  rcases formatScript_cases T failure path s with ⟨h, -⟩ | ⟨content, left, -, -, h⟩ | ⟨content, -, h⟩
  · rw [h]
    exact hs c hc
  · rw [h]
    exact hs c hc
  · rw [h]
    simp only [Function.update_of_ne (xml_ne_plist other path)]
    exact hs c hc

/-- The stamp is taken before the formatting, which does not change what the file says. -/
theorem formatScript_plistStamped (hT : T.Documented) (failure : String → Option String)
    (path : String) (s : BuildFiles) (hok : (formatScript T failure path s).2 = true) :
    PlistStamped T path (formatScript T failure path s).1 := by
  rcases formatScript_cases T failure path s with ⟨h, hfresh⟩ | ⟨content, left, -, -, h⟩ |
    ⟨content, -, h⟩
  · rw [h]
    exact fun c hc => ⟨c, hfresh c hc, rfl⟩
  · rw [h] at hok
    exact absurd hok nofun
  · rw [h]
    intro c hc
    simp only [Function.update_self, Option.some.injEq] at hc
    refine ⟨content, Function.update_self _ _ _, ?_⟩
    rw [← hc, hT.read_format]

theorem formatScript_keeps_plistStamped (hT : T.Documented) (failure : String → Option String)
    (path other : String) (s : BuildFiles) (hok : (formatScript T failure path s).2 = true)
    (hs : PlistStamped T other s) : PlistStamped T other (formatScript T failure path s).1 := by
  by_cases hother : other = path
  · rw [hother]
    exact formatScript_plistStamped hT failure path s hok
  · have hne : SourceFile.plist other ≠ .plist path := fun h => hother (SourceFile.plist.inj h)
    rcases formatScript_cases T failure path s with ⟨h, -⟩ | ⟨content, left, -, -, h⟩ |
      ⟨content, -, h⟩
    · rw [h]
      exact hs
    · rw [h] at hok
      exact absurd hok nofun
    · rw [h]
      intro c hc
      simp only [Function.update_of_ne hne] at hc ⊢
      exact hs c hc

theorem packScript_noOrphan (failure : String → Option (List UInt8)) (path : String) (s : BuildFiles)
    (hs : NoOrphan s) : NoOrphan (packScript T failure path s).1 := by
  intro other hstamp
  rw [(packScript_frame failure path s).present]
  apply hs
  rcases packScript_cases T failure path s with ⟨h, -⟩ | ⟨left, -, h⟩ | ⟨content, -, h⟩
  · rwa [h] at hstamp
  · rwa [h] at hstamp
  · rw [h] at hstamp
    simpa only [Function.update_of_ne (xml_ne_plist path other).symm] using hstamp

theorem formatScript_noOrphan (failure : String → Option String) (path : String) (s : BuildFiles)
    (hs : NoOrphan s) : NoOrphan (formatScript T failure path s).1 := by
  intro other hstamp
  rw [(formatScript_frame failure path s).present]
  rcases formatScript_cases T failure path s with ⟨h, -⟩ | ⟨content, left, -, -, h⟩ | ⟨content, hc, h⟩
  · rw [h] at hstamp
    exact hs other hstamp
  · rw [h] at hstamp
    exact hs other hstamp
  · by_cases hother : other = path
    · rw [hother, hc]
      rfl
    · have hne : SourceFile.plist other ≠ .plist path := fun h => hother (SourceFile.plist.inj h)
      rw [h] at hstamp
      simp only [Function.update_of_ne hne] at hstamp
      exact hs other hstamp

/-! ### After packing and formatting -/

/-- What a run must not meet: a stamp that has outlived its property list, a packing that fails, a
formatting that fails and does not end the run, or a converter that fails and leaves half an output
while there is a `Resources.md5`. -/
structure GenerateRun.Sound (r : GenerateRun) (s : BuildFiles) : Prop where
  noOrphan : NoOrphan s
  packs : ∀ path, r.packFailure path = none
  formats : r.errexit = true ∨ ∀ path, r.formatFailure path = none
  converts : ∀ left, r.converterFailure = some (some left) → s.resourcesMd5 = none

theorem packScript_ok {failure : String → Option (List UInt8)}
    (hfailure : ∀ path, failure path = none) (path : String) (s : BuildFiles) :
    (packScript T failure path s).2 = true := by
  rcases packScript_cases T failure path s with ⟨h, -⟩ | ⟨left, hleft, -⟩ | ⟨content, -, h⟩
  · rw [h]
  · exact absurd ((hfailure path).symm.trans hleft) nofun
  · rw [h]

theorem formatScript_ok {failure : String → Option String}
    (hfailure : ∀ path, failure path = none) (path : String) (s : BuildFiles) :
    (formatScript T failure path s).2 = true := by
  rcases formatScript_cases T failure path s with ⟨h, -⟩ | ⟨content, left, -, hleft, -⟩ |
    ⟨content, -, h⟩
  · rw [h]
  · exact absurd ((hfailure path).symm.trans hleft) nofun
  · rw [h]

section Stages

variable {r : GenerateRun} {s : BuildFiles}

theorem packed_stamped (hT : T.Documented) (hr : r.Sound s) (hs : Stamped T s) :
    Stamped T (packed T r s).1 :=
  xargs_invariant (packScript_stamped hT hr.packs) r.xmls hs

theorem formatted_stamped (hT : T.Documented) (hr : r.Sound s) (hs : Stamped T s) :
    Stamped T (formatted T r s).1 :=
  xargs_invariant (formatScript_stamped r.formatFailure) r.plists (packed_stamped hT hr hs)

/-- A run that gets past the formatting has formatted everything. -/
theorem formatted_ok (hr : r.Sound s) (hpast : ¬(r.errexit ∧ (formatted T r s).2 = false)) :
    (formatted T r s).2 = true := by
  rcases hr.formats with herrexit | hformats
  · rcases Bool.eq_false_or_eq_true (formatted T r s).2 with hok | hok
    · exact hok
    · exact absurd ⟨herrexit, hok⟩ hpast
  · exact xargs_ok (formatScript_ok hformats) r.plists _

theorem formatted_noOrphan (hr : r.Sound s) : NoOrphan (formatted T r s).1 :=
  xargs_invariant (formatScript_noOrphan r.formatFailure) r.plists
    (xargs_invariant (packScript_noOrphan r.packFailure) r.xmls hr.noOrphan)

theorem formatted_xmlStamped (hr : r.Sound s) (hfinds : r.Finds T s) (path : String) :
    XmlStamped T path (formatted T r s).1 := by
  have hpacked : XmlStamped T path (packed T r s).1 := by
    intro content hcontent
    have hlisted : path ∈ r.xmls := by
      rw [hfinds.xmls, ← (packed_frame (T := T) r s).xml, hcontent]
      rfl
    exact xargs_done (packScript_xmlStamped r.packFailure) (packScript_keeps_xmlStamped r.packFailure)
      (xargs_ok (packScript_ok hr.packs) r.xmls s) path hlisted content hcontent
  exact xargs_invariant (fun other t => formatScript_keeps_xmlStamped r.formatFailure other path t)
    r.plists hpacked

theorem formatted_plistStamped (hT : T.Documented) (hfinds : r.Finds T s)
    (hok : (formatted T r s).2 = true) (path : String) : PlistStamped T path (formatted T r s).1 := by
  intro content hcontent
  have hlisted : path ∈ r.plists := by
    rw [hfinds.plists, ← (formatted_frame (T := T) r s).present, hcontent]
    rfl
  exact xargs_done (formatScript_plistStamped hT r.formatFailure)
    (formatScript_keeps_plistStamped hT r.formatFailure) hok path hlisted content hcontent

end Stages

/-! ### When nothing fails -/

/-- The files, with those of the list packed and stamped as they are now. -/
def refreshed (T : Tools) (files : List SourceFile) (s : BuildFiles) : BuildFiles :=
  { s with
    zlib := fun path =>
      if .xml path ∈ files then (s.content (.xml path)).map T.deflate else s.zlib path
    stamp := fun file =>
      if file ∈ files then (s.content file).map (T.md5 file.name) else s.stamp file }

theorem refreshed_nil (s : BuildFiles) : refreshed T [] s = s := by
  simp [refreshed]

theorem refreshed_refreshed (xs ys : List SourceFile) (s : BuildFiles) :
    refreshed T ys (refreshed T xs s) = refreshed T (xs ++ ys) s := by
  unfold refreshed
  simp only [List.mem_append]
  congr 1 <;> funext x <;> split_ifs <;> simp_all

/-- A script that does not fail packs and stamps its `.xml`.  If it has nothing to do, the stamp says
that this has happened before. -/
theorem packScript_refreshed {s : BuildFiles} (hs : Stamped T s)
    {failure : String → Option (List UInt8)} (hfailure : ∀ path, failure path = none) {path : String}
    (hpath : (s.content (.xml path)).isSome) :
    packScript T failure path s = (refreshed T [.xml path] s, true) := by
  obtain ⟨c, hc⟩ := Option.isSome_iff_exists.mp hpath
  have hwritten : refreshed T [.xml path] s =
      { s with
        zlib := Function.update s.zlib path (some (T.deflate c))
        stamp := Function.update s.stamp (.xml path)
          (some (T.md5 (SourceFile.xml path).name c)) } := by
    unfold refreshed
    congr 1 <;> funext x <;> simp only [Function.update_apply, List.mem_singleton,
      SourceFile.xml.injEq] <;> split_ifs <;> simp_all
  rcases packScript_cases T failure path s with ⟨h, hfresh⟩ | ⟨left, hleft, -⟩ | ⟨content, hcontent, h⟩
  · have hstamp := hfresh c hc
    have hzlib := (hs.zlib path _).mpr ⟨c, hstamp, rfl⟩
    rw [h, hwritten, ← hstamp, ← hzlib, Function.update_eq_self, Function.update_eq_self]
  · exact absurd (hleft.symm.trans (hfailure path)) (Option.some_ne_none left)
  · rw [h, hwritten, Option.some.inj (hc.symm.trans hcontent)]

/-- So does one that formats, if there is nothing to format. -/
theorem formatScript_refreshed {s : BuildFiles} {failure : String → Option String}
    (hfailure : ∀ path, failure path = none) {path c : String}
    (hc : s.content (.plist path) = some c) (hformat : T.format c = c) :
    formatScript T failure path s = (refreshed T [.plist path] s, true) := by
  have hwritten : refreshed T [.plist path] s =
      { s with
        stamp := Function.update s.stamp (.plist path)
          (some (T.md5 (SourceFile.plist path).name c)) } := by
    unfold refreshed
    congr 1
    funext file
    simp only [Function.update_apply, List.mem_singleton]
    split_ifs <;> simp_all
  rcases formatScript_cases T failure path s with ⟨h, hfresh⟩ | ⟨content, left, -, hleft, -⟩ |
    ⟨content, hcontent, h⟩
  · rw [h, hwritten, ← hfresh c hc, Function.update_eq_self]
  · exact absurd (hleft.symm.trans (hfailure path)) (Option.some_ne_none left)
  · rw [h, hwritten, ← Option.some.inj (hc.symm.trans hcontent), hformat, ← hc,
      Function.update_eq_self]

theorem xargs_packScript (hT : T.Documented) {failure : String → Option (List UInt8)}
    (hfailure : ∀ path, failure path = none) {paths : List String} {s : BuildFiles}
    (hs : Stamped T s) (hpaths : ∀ path ∈ paths, (s.content (.xml path)).isSome) :
    xargs (packScript T failure) paths s = (refreshed T (paths.map .xml) s, true) := by
  induction paths generalizing s with
  | nil => rw [xargs, List.map_nil, refreshed_nil]
  | cons path paths ih =>
      rw [List.forall_mem_cons] at hpaths
      have hstep := packScript_refreshed hs hfailure hpaths.1
      have hnext : Stamped T (refreshed T [.xml path] s) := by
        have hstamped := packScript_stamped hT hfailure path s hs
        rwa [hstep] at hstamped
      rw [xargs, hstep]
      simp only [ih hnext hpaths.2, refreshed_refreshed, Bool.and_self, List.map_cons,
        List.singleton_append]

theorem xargs_formatScript {failure : String → Option String}
    (hfailure : ∀ path, failure path = none) {paths : List String} {s : BuildFiles}
    (hpaths : ∀ path ∈ paths, ∃ c, s.content (.plist path) = some c ∧ T.format c = c) :
    xargs (formatScript T failure) paths s = (refreshed T (paths.map .plist) s, true) := by
  induction paths generalizing s with
  | nil => rw [xargs, List.map_nil, refreshed_nil]
  | cons path paths ih =>
      rw [List.forall_mem_cons] at hpaths
      obtain ⟨⟨c, hc, hformat⟩, hrest⟩ := hpaths
      have hnext := ih (s := refreshed T [.plist path] s) hrest
      rw [xargs, formatScript_refreshed hfailure hc hformat]
      simp only [hnext, refreshed_refreshed, Bool.and_self, List.map_cons, List.singleton_append]

end AppleALC.ResourceConverter
