import AppleALC.ResourceConverter.Stamps

/-!
# What a trusted output is worth

`generate.sh` trusts `kern_resources.cpp` while the stamps have the sum they had when the file was
built.  That is a cache keyed by a fingerprint of the resources, and it is right as long as the
stamps determine what the converter reads.  They do so unless

* the stamp of a deleted property list stays behind and still counts,
* a packing fails and leaves a broken file beside a stamp of older contents,
* a formatting fails and the run goes on, because the shell was started without `-e`,
* the converter fails and leaves half an output, while `Resources.md5` still holds the old sum.

A run without these keeps the cache valid, and then so do any number of runs and edits.

* `Describes` / `describes_determines` — the sum says what the converter reads;
* `CacheInv` / `generate_sound` — the invariant, and the step lemma for a build;
* `trusted_after_delete` — how it goes wrong with a stamp that stays behind;
* `GenerateRun.Clean` — a build in which nothing fails, which leaves `rebuilt`;
* `trusts_coherent` — through sound builds and edits, what is trusted is what would be built.
-/

namespace AppleALC.ResourceConverter

open OutputMachine Fingerprint

/-! ### The sum of the stamps -/

/-- What the converter reads: the property lists and the packed files. -/
abbrev ConverterInput := (String → Option PropertyList) × (String → Option (List UInt8))

/-- The sum is that of stamps which say what the converter reads. -/
def Describes (T : Tools) (sum : String) (input : ConverterInput) : Prop :=
  ∃ stamps : List String, sum = resourcesSum T stamps ∧
    (∀ h ∈ stamps, ∃ file content, h = T.md5 (SourceFile.name file) content) ∧
    (∀ path d, input.1 path = some d ↔
      ∃ content, T.md5 (SourceFile.plist path).name content ∈ stamps ∧ T.read content = d) ∧
    ∀ path z, input.2 path = some z ↔
      ∃ content, T.md5 (SourceFile.xml path).name content ∈ stamps ∧ T.deflate content = z

/-- The stamps can be told from their sum. -/
theorem resourcesSum_injective (hT : T.Documented) {xs ys : List String}
    (hxs : ∀ h ∈ xs, ∃ name content, h = T.md5 name content)
    (hys : ∀ h ∈ ys, ∃ name content, h = T.md5 name content)
    (h : resourcesSum T xs = resourcesSum T ys) : xs = ys := by
  have hline : ∀ {zs : List String}, (∀ h ∈ zs, ∃ name content, h = T.md5 name content) →
      ∀ line ∈ zs.map String.toList, '\n' ∉ line := by
    intro zs hzs line hline
    obtain ⟨z, hz, rfl⟩ := List.mem_map.mp hline
    obtain ⟨name, content, rfl⟩ := hzs z hz
    exact hT.md5_line name content
  have htext : ∀ zs : List String, (String.join (zs.map (· ++ "\n"))).toList
      = (zs.map String.toList).flatMap (· ++ ['\n']) := by
    intro zs
    simp [String.toList_join, List.flatMap_map]
  have hjoin := congrArg String.toList (hT.md5_inj h).2
  rw [htext, htext] at hjoin
  exact List.map_injective_iff.mpr (fun a b => String.toList_injective)
    (lines_injective (hline hxs) (hline hys) hjoin)

theorem describes_determines (hT : T.Documented) : Determines (Describes T) := by
  rintro sum ⟨plist, zlib⟩ ⟨plist', zlib'⟩ ⟨xs, hx, hxs, hplist, hzlib⟩ ⟨ys, hy, hys, hplist', hzlib'⟩
  have hsame : xs = ys := by
    refine resourcesSum_injective hT ?_ ?_ (hx.symm.trans hy)
    · intro h hh
      obtain ⟨file, content, rfl⟩ := hxs h hh
      exact ⟨_, content, rfl⟩
    · intro h hh
      obtain ⟨file, content, rfl⟩ := hys h hh
      exact ⟨_, content, rfl⟩
  subst hsame
  congr 1
  · funext path
    exact Option.ext fun d => (hplist path d).trans (hplist' path d).symm
  · funext path
    exact Option.ext fun z => (hzlib path z).trans (hzlib' path z).symm

/-- In a stamped tree a sum of a file is listed only if it is the stamp of that file. -/
theorem mem_stamps {s : BuildFiles} (hT : T.Documented) (hs : Stamped T s) {files : List SourceFile}
    (hfiles : ∀ file, file ∈ files ↔ (s.stamp file).isSome) (file : SourceFile) (content : String) :
    T.md5 file.name content ∈ files.filterMap s.stamp ↔
      s.stamp file = some (T.md5 file.name content) := by
  rw [List.mem_filterMap]
  constructor
  · rintro ⟨other, -, hother⟩
    obtain ⟨c, hc⟩ := hs.stamp other _ hother
    obtain rfl := SourceFile.name_injective (hT.md5_inj hc).1
    exact hother
  · intro hfile
    exact ⟨file, (hfiles file).mpr (by rw [hfile]; rfl), hfile⟩

/-- **The stamps describe the tree** when every file is up to date and no stamp is left over. -/
theorem describes_stamps (hT : T.Documented) {s : BuildFiles} (hs : Stamped T s)
    (hplist : ∀ path, PlistStamped T path s) (horphan : NoOrphan s) {files : List SourceFile}
    (hfiles : ∀ file, file ∈ files ↔ (s.stamp file).isSome) :
    Describes T (resourcesSum T (files.filterMap s.stamp)) (s.plists T, s.zlib) := by
  refine ⟨files.filterMap s.stamp, rfl, ?_, ?_, ?_⟩
  · intro h hh
    obtain ⟨file, -, hfile⟩ := List.mem_filterMap.mp hh
    obtain ⟨content, hcontent⟩ := hs.stamp file h hfile
    exact ⟨file, content, hcontent⟩
  · intro path d
    constructor
    · intro hd
      obtain ⟨content, hcontent, rfl⟩ := Option.map_eq_some_iff.mp hd
      obtain ⟨old, hold, hread⟩ := hplist path content hcontent
      exact ⟨old, (mem_stamps hT hs hfiles (.plist path) old).mpr hold, hread⟩
    · rintro ⟨old, hmem, rfl⟩
      have hold := (mem_stamps hT hs hfiles (.plist path) old).mp hmem
      obtain ⟨content, hcontent⟩ := Option.isSome_iff_exists.mp (horphan path (by rw [hold]; rfl))
      obtain ⟨old', hold', hread⟩ := hplist path content hcontent
      rw [(hT.md5_inj (Option.some.inj (hold.symm.trans hold'))).2, hread]
      exact Option.map_eq_some_iff.mpr ⟨content, hcontent, rfl⟩
  · intro path z
    rw [hs.zlib path z]
    simp only [mem_stamps hT hs hfiles (.xml path)]

/-! ### Runs -/

/-- The packed files of the tree with every `.xml` packed.  That of a deleted `.xml` is still there. -/
def packEvery (T : Tools) (s : BuildFiles) (path : String) : Option (List UInt8) :=
  match s.content (.xml path) with
  | some content => some (T.deflate content)
  | none => s.zlib path

/-- `kern_resources.cpp` is what the converter makes of the resources. -/
def Coherent (T : Tools) (s : BuildFiles) : Prop :=
  s.kernResources = resourceConverter (resourceTree T (s.plists T) (packEvery T s))

/-- Whenever the project is built and the output trusted, it is coherent. -/
def TrustsCoherent (T : Tools) (actions : List Action) (s : BuildFiles) : Prop :=
  ∀ before r after, actions = before ++ .generate r :: after →
    (generate T r (run (act T) before s)).2 = .trusted →
      Coherent T (generate T r (run (act T) before s)).1

/-- The kept output, under the kept sum. -/
def BuildFiles.cache (s : BuildFiles) : Cache String String := ⟨s.resourcesMd5, s.kernResources⟩

/-- What the converter makes of its input. -/
def build (T : Tools) (input : ConverterInput) : Option String :=
  resourceConverter (resourceTree T input.1 input.2)

/-- The invariant of sound runs. -/
structure CacheInv (T : Tools) (s : BuildFiles) : Prop where
  stamped : Stamped T s
  valid : s.cache.Valid (Describes T) (build T)

theorem cacheInv_checkout (T : Tools) (content : SourceFile → Option String) :
    CacheInv T (checkout content) where
  stamped := by
    refine ⟨fun _ _ h => absurd h nofun, ?_⟩
    intro path z
    constructor
    · exact fun h => absurd h nofun
    · rintro ⟨c, hc, -⟩
      exact absurd hc nofun
  valid := Cache.valid_of_no_output none

/-- An edit does not touch what the scripts leave behind. -/
theorem cacheInv_edit {s : BuildFiles} (hs : CacheInv T s) (file : SourceFile)
    (content : Option String) : CacheInv T (act T (.edit file content) s).1 :=
  ⟨⟨hs.stamped.stamp, hs.stamped.zlib⟩, hs.valid⟩

/-- Packing and formatting do not touch the output. -/
theorem CacheInv.of_frame {s s' : BuildFiles} (hs : CacheInv T s) (hstamped : Stamped T s')
    (hframe : Frame s s') : CacheInv T s' := by
  refine ⟨hstamped, ?_⟩
  rw [BuildFiles.cache, hframe.resourcesMd5, hframe.kernResources]
  exact hs.valid

/-- The end of the script keeps the cache valid if the stamps describe the tree. -/
theorem buildResources_cacheInv {r : GenerateRun} {s : BuildFiles} (hs : CacheInv T s)
    (hdescribes : Describes T (resourcesSum T (r.stamps.filterMap s.stamp)) (s.plists T, s.zlib))
    (hconverts : ∀ left, r.converterFailure = some (some left) → s.resourcesMd5 = none) :
    CacheInv T (buildResources T r s).1 := by
  unfold buildResources
  split
  · exact hs
  · simp only
    split
    · exact hs
    · split
      · next left hleft =>
        refine ⟨⟨hs.stamped.stamp, hs.stamped.zlib⟩, ?_⟩
        cases left with
        | none => exact Cache.valid_of_no_output s.resourcesMd5
        | some text =>
            show Cache.Valid _ _ ⟨s.resourcesMd5, some text⟩
            rw [hconverts text hleft]
            exact Cache.valid_of_no_key (some text)
      · exact ⟨⟨hs.stamped.stamp, hs.stamped.zlib⟩, Cache.valid_of_no_output s.resourcesMd5⟩
      · next text _ htext =>
        refine ⟨⟨hs.stamped.stamp, hs.stamped.zlib⟩, ?_⟩
        have hstore : Cache.Valid (Describes T) (build T) ⟨_, build T _⟩ :=
          Cache.valid_store hdescribes
        rw [build, htext] at hstore
        exact hstore

/-- The output and its sum are there, and the stamps have that sum. -/
def Trusts (T : Tools) (r : GenerateRun) (s : BuildFiles) : Prop :=
  r.catFailure = false ∧ s.kernResources.isSome ∧
    s.resourcesMd5 = some (resourcesSum T (r.stamps.filterMap s.stamp))

theorem buildResources_of_trusts {r : GenerateRun} {s : BuildFiles} (h : Trusts T r s) :
    buildResources T r s = (s, .trusted) := by
  simp [buildResources, h.1, h.2]

/-- A build whose sum is new writes the output. -/
theorem buildResources_of_converted {r : GenerateRun} {s : BuildFiles} (hcat : r.catFailure = false)
    (hmd5 : s.resourcesMd5 ≠ some (resourcesSum T (r.stamps.filterMap s.stamp)))
    (hok : r.converterFailure = none) (houtput : (build T (s.plists T, s.zlib)).isSome) :
    buildResources T r s =
      ({ s with
          kernResources := build T (s.plists T, s.zlib)
          resourcesMd5 := some (resourcesSum T (r.stamps.filterMap s.stamp)) }, .rebuilt) := by
  obtain ⟨text, htext⟩ := Option.isSome_iff_exists.mp houtput
  rw [htext]
  rw [build] at htext
  simp [buildResources, hcat, hmd5, hok, htext]

theorem trusts_of_trusted {r : GenerateRun} {s : BuildFiles}
    (h : (buildResources T r s).2 = .trusted) : Trusts T r s := by
  unfold buildResources at h
  split at h
  · exact absurd h nofun
  · next hcat =>
    simp only at h
    split at h
    · next htrusts => exact ⟨Bool.eq_false_of_not_eq_true hcat, htrusts⟩
    · split at h <;> exact absurd h nofun

/-- In a tree whose `.xml` files are all packed as they are, packing them again changes nothing. -/
theorem packEvery_eq {s : BuildFiles} (hs : Stamped T s) (hxml : ∀ path, XmlStamped T path s) :
    packEvery T s = s.zlib := by
  funext path
  unfold packEvery
  split
  · next content hcontent =>
    exact ((hs.zlib path _).mpr ⟨content, hxml path content hcontent, rfl⟩).symm
  · rfl

/-- **Step lemma.**  A sound run keeps the cache valid, and what it trusts is coherent. -/
theorem generate_sound (hT : T.Documented) {r : GenerateRun} {s : BuildFiles} (hr : r.Sound s)
    (hfinds : r.Finds T s) (hs : CacheInv T s) :
    CacheInv T (generate T r s).1 ∧
      ((generate T r s).2 = .trusted → Coherent T (generate T r s).1) := by
  have hframe := formatted_frame (T := T) r s
  have hstamped := formatted_stamped hT hr hs.stamped
  have hinv := hs.of_frame hstamped hframe
  unfold generate
  split
  · have hpacked := hs.of_frame (packed_stamped hT hr hs.stamped) (packed_frame r s)
    exact ⟨hpacked, fun h => absurd h nofun⟩
  · split
    · exact ⟨hinv, fun h => absurd h nofun⟩
    · next hpast =>
      have hdescribes := describes_stamps hT hstamped
        (formatted_plistStamped hT hfinds (formatted_ok hr hpast)) (formatted_noOrphan hr) hfinds.stamps
      refine ⟨buildResources_cacheInv hinv hdescribes ?_, ?_⟩
      · intro left hleft
        rw [hframe.resourcesMd5]
        exact hr.converts left hleft
      · intro htrusted
        have htrusts := trusts_of_trusted htrusted
        rw [buildResources_of_trusts htrusts, Coherent,
          packEvery_eq hstamped (formatted_xmlStamped hr hfinds)]
        exact hinv.valid.hit (describes_determines hT) htrusts.2.2 htrusts.2.1 hdescribes

/-! ### Settled trees -/

/-- Every resource is packed, or formatted and stamped, as it is now. -/
structure Settled (T : Tools) (s : BuildFiles) : Prop where
  xml : ∀ path content, s.content (.xml path) = some content →
    (s.zlib path).isSome ∧ s.stamp (.xml path) = some (T.md5 (SourceFile.xml path).name content)
  plist : ∀ path content, s.content (.plist path) = some content →
    s.stamp (.plist path) = some (T.md5 (SourceFile.plist path).name content)

theorem xargs_of_fixed {script : String → BuildFiles → BuildFiles × Bool} {s : BuildFiles}
    (h : ∀ path, script path s = (s, true)) (paths : List String) :
    xargs script paths s = (s, true) := by
  induction paths with
  | nil => rfl
  | cons path paths ih =>
      rw [xargs, h]
      simp only [ih, Bool.and_true]

/-- In a settled tree packing does nothing. -/
theorem packed_of_settled {s : BuildFiles} (hs : Settled T s) (r : GenerateRun) :
    packed T r s = (s, true) := by
  have hpack : ∀ path, packScript T r.packFailure path s = (s, true) :=
    fun path => stampScript_of_fresh _ (hs.xml path)
  exact xargs_of_fixed hpack r.xmls

/-- In a settled tree formatting does nothing. -/
theorem formatted_of_settled {s : BuildFiles} (hs : Settled T s) (r : GenerateRun) :
    formatted T r s = (s, true) := by
  have hformat : ∀ path, formatScript T r.formatFailure path s = (s, true) :=
    fun path => stampScript_of_fresh _ fun content hcontent => ⟨rfl, hs.plist path content hcontent⟩
  rw [formatted, packed_of_settled hs]
  exact xargs_of_fixed hformat r.plists

theorem generate_of_settled {s : BuildFiles} (hs : Settled T s) (r : GenerateRun) :
    generate T r s = buildResources T r s := by
  simp [generate, packed_of_settled hs, formatted_of_settled hs]

/-- Without one of its files the tree is still settled. -/
theorem Settled.delete {s : BuildFiles} (hs : Settled T s) (file : SourceFile) :
    Settled T (act T (.edit file none) s).1 := by
  have hcontent : ∀ {f content}, (act T (.edit file none) s).1.content f = some content →
      s.content f = some content := by
    intro f content h
    by_cases hfile : f = file
    · subst hfile
      simp [act] at h
    · simpa [act, Function.update_of_ne hfile] using h
  exact ⟨fun path content h => hs.xml path content (hcontent h),
    fun path content h => hs.plist path content (hcontent h)⟩

/-- **The defect.**  The stamp of a deleted file still counts, so an output that is trusted stays trusted
when any resource is deleted. -/
theorem trusted_after_delete {s : BuildFiles} (hs : Settled T s) {r r' : GenerateRun}
    (htrusted : (generate T r s).2 = .trusted) (hstamps : r'.stamps = r.stamps)
    (hcat : r'.catFailure = false) (file : SourceFile) :
    generate T r' (act T (.edit file none) s).1 = ((act T (.edit file none) s).1, .trusted) := by
  rw [generate_of_settled hs] at htrusted
  obtain ⟨-, houtput, hsum⟩ := trusts_of_trusted htrusted
  rw [generate_of_settled (hs.delete file)]
  exact buildResources_of_trusts ⟨hcat, houtput, by rw [hstamps]; exact hsum⟩

/-! ### Clean builds -/

def GenerateRun.files (r : GenerateRun) : List SourceFile :=
  r.xmls.map .xml ++ r.plists.map .plist

/-- A run in which nothing fails, over files that are formatted and without stamps of other files. -/
structure GenerateRun.Clean (T : Tools) (r : GenerateRun) (s : BuildFiles) : Prop where
  files : ∀ file, file ∈ r.files ↔ (s.content file).isSome
  stamps : ∀ file, file ∈ r.stamps ↔ (s.content file).isSome
  noOrphan : ∀ file, (s.stamp file).isSome → (s.content file).isSome
  keepsFormat : ∀ path c, s.content (.plist path) = some c → T.format c = c
  packs : ∀ path, r.packFailure path = none
  formats : ∀ path, r.formatFailure path = none
  cats : r.catFailure = false
  converts : r.converterFailure = none

/-- The files after a clean build. -/
def rebuilt (T : Tools) (r : GenerateRun) (s : BuildFiles) : BuildFiles :=
  let t := refreshed T r.files s
  { t with
    kernResources := build T (t.plists T, t.zlib)
    resourcesMd5 := some (resourcesSum T (r.stamps.filterMap t.stamp)) }

theorem rebuilt_kernResources (T : Tools) (r : GenerateRun) (s : BuildFiles) :
    (rebuilt T r s).kernResources =
      resourceConverter (resourceTree T ((rebuilt T r s).plists T) (rebuilt T r s).zlib) := rfl

namespace GenerateRun.Clean

variable {r : GenerateRun} {s : BuildFiles}

theorem mem_xmls (h : r.Clean T s) (path : String) : path ∈ r.xmls ↔ (s.content (.xml path)).isSome := by
  rw [← h.files]
  simp [GenerateRun.files]

theorem mem_plists (h : r.Clean T s) (path : String) :
    path ∈ r.plists ↔ (s.content (.plist path)).isSome := by
  rw [← h.files]
  simp [GenerateRun.files]

theorem packed_eq (hT : T.Documented) (hs : Stamped T s) (h : r.Clean T s) :
    packed T r s = (refreshed T (r.xmls.map .xml) s, true) :=
  xargs_packScript hT h.packs hs fun path hpath => (h.mem_xmls path).mp hpath

theorem formatted_eq (hT : T.Documented) (hs : Stamped T s) (h : r.Clean T s) :
    formatted T r s = (refreshed T r.files s, true) := by
  have hpaths : ∀ path ∈ r.plists, ∃ c, s.content (.plist path) = some c ∧ T.format c = c := by
    intro path hpath
    obtain ⟨c, hc⟩ := Option.isSome_iff_exists.mp ((h.mem_plists path).mp hpath)
    exact ⟨c, hc, h.keepsFormat path c hc⟩
  have hformatted := xargs_formatScript (s := refreshed T (r.xmls.map .xml) s) h.formats hpaths
  rw [formatted, packed_eq hT hs h, hformatted, refreshed_refreshed]
  rfl

theorem refreshed_stamp (h : r.Clean T s) (file : SourceFile) :
    (refreshed T r.files s).stamp file = (s.content file).map (T.md5 file.name) := by
  unfold refreshed
  simp only
  split
  · rfl
  · next hfile =>
    rw [h.files, Option.not_isSome_iff_eq_none] at hfile
    rw [hfile, Option.map_none]
    exact Option.not_isSome_iff_eq_none.mp fun hstamp =>
      absurd (h.noOrphan file hstamp) (by rw [hfile]; decide)

theorem finds (hT : T.Documented) (hs : Stamped T s) (h : r.Clean T s) : r.Finds T s where
  xmls := h.mem_xmls
  plists := h.mem_plists
  stamps file := by rw [h.stamps, formatted_eq hT hs h, h.refreshed_stamp, Option.isSome_map]

theorem sound (h : r.Clean T s) : r.Sound s where
  noOrphan path := h.noOrphan (.plist path)
  packs := h.packs
  formats := Or.inr h.formats
  converts _ hleft := absurd (h.converts.symm.trans hleft) (Option.some_ne_none _).symm

/-- **A clean build whose sum is new** packs, stamps and converts everything. -/
theorem generate_eq (hT : T.Documented) (hs : Stamped T s) (h : r.Clean T s)
    (hmd5 : s.resourcesMd5 ≠ (rebuilt T r s).resourcesMd5)
    (houtput : (rebuilt T r s).kernResources.isSome) :
    generate T r s = (rebuilt T r s, .rebuilt) := by
  rw [generate, packed_eq hT hs h, formatted_eq hT hs h, if_neg (by simp),
    if_neg (by simp)]
  exact buildResources_of_converted h.cats hmd5 h.converts houtput

/-- What it leaves can be built again by a clean build. -/
theorem clean_rebuilt (h : r.Clean T s) : r.Clean T (rebuilt T r s) :=
  { h with
    noOrphan := fun file hstamp => by
      have hcontent := h.refreshed_stamp file ▸ hstamp
      rwa [Option.isSome_map] at hcontent }

theorem stamped_rebuilt (hT : T.Documented) (hs : Stamped T s) (h : r.Clean T s) :
    Stamped T (rebuilt T r s) := by
  have hformatted := formatted_stamped hT h.sound hs
  rw [formatted_eq hT hs h] at hformatted
  exact ⟨hformatted.stamp, hformatted.zlib⟩

theorem settled_rebuilt (h : r.Clean T s) : Settled T (rebuilt T r s) := by
  have hstamp : ∀ file content, s.content file = some content →
      (refreshed T r.files s).stamp file = some (T.md5 file.name content) := by
    intro file content hcontent
    rw [h.refreshed_stamp, hcontent, Option.map_some]
  refine ⟨fun path content hcontent => ⟨?_, hstamp (.xml path) content hcontent⟩,
    fun path content hcontent => hstamp (.plist path) content hcontent⟩
  have hcontent : s.content (.xml path) = some content := hcontent
  have hmem : .xml path ∈ r.files := (h.files _).mpr (by rw [hcontent]; rfl)
  simp only [rebuilt, refreshed, if_pos hmem, hcontent, Option.map_some,
    Option.isSome_some]

/-- **The next build** trusts what it left. -/
theorem generate_again (h : r.Clean T s)
    (houtput : (rebuilt T r s).kernResources.isSome) :
    generate T r (rebuilt T r s) =
      (rebuilt T r s, .trusted) :=
  (generate_of_settled h.settled_rebuilt r).trans (buildResources_of_trusts ⟨h.cats, houtput, rfl⟩)

/-- The stamps are the sums of the files as they are now. -/
theorem sum_mem_stamps (hT : T.Documented) (h : r.Clean T s) (file : SourceFile) (c : String) :
    T.md5 file.name c ∈ r.stamps.filterMap (refreshed T r.files s).stamp ↔
      s.content file = some c := by
  rw [List.mem_filterMap]
  constructor
  · rintro ⟨other, -, hother⟩
    rw [h.refreshed_stamp] at hother
    obtain ⟨c', hc', hsum⟩ := Option.map_eq_some_iff.mp hother
    obtain ⟨hname, rfl⟩ := hT.md5_inj hsum
    exact SourceFile.name_injective hname ▸ hc'
  · intro hc
    refine ⟨file, (h.stamps file).mpr (by rw [hc]; rfl), ?_⟩
    rw [h.refreshed_stamp, hc, Option.map_some]

/-- The sum of the stamps changes with every file. -/
theorem resourcesMd5_ne (hT : T.Documented) {s' : BuildFiles} (h : r.Clean T s) (h' : r.Clean T s')
    (file : SourceFile) (hne : s.content file ≠ s'.content file) :
    (rebuilt T r s).resourcesMd5 ≠
      (rebuilt T r s').resourcesMd5 := by
  have hsums : ∀ {t}, r.Clean T t → ∀ sum ∈ r.stamps.filterMap (refreshed T r.files t).stamp,
      ∃ name content, sum = T.md5 name content := by
    intro t ht sum hsum
    obtain ⟨file, -, hfile⟩ := List.mem_filterMap.mp hsum
    rw [ht.refreshed_stamp] at hfile
    obtain ⟨c, -, hc⟩ := Option.map_eq_some_iff.mp hfile
    exact ⟨file.name, c, hc.symm⟩
  intro hsum
  have hstamps := resourcesSum_injective hT (hsums h) (hsums h') (Option.some.inj hsum)
  refine hne (Option.ext fun c => ?_)
  rw [← h.sum_mem_stamps hT, hstamps, h'.sum_mem_stamps hT]

/-- A build stays clean when one of its files is edited. -/
theorem edit (h : r.Clean T s) {file : SourceFile} {new : String} (hfile : (s.content file).isSome)
    (hformat : T.format new = new) : r.Clean T (act T (.edit file (some new)) s).1 := by
  have hcontent : ∀ f, (Function.update s.content file (some new) f).isSome ↔
      (s.content f).isSome := by
    intro f
    by_cases hf : f = file
    · subst hf
      simp [hfile]
    · rw [Function.update_of_ne hf]
  refine { h with
    files := fun f => (h.files f).trans (hcontent f).symm
    stamps := fun f => (h.stamps f).trans (hcontent f).symm
    noOrphan := fun f hstamp => (hcontent f).mpr (h.noOrphan f hstamp)
    keepsFormat := ?_ }
  intro path c hc
  by_cases hpath : .plist path = file
  · subst hpath
    simp only [act, Function.update_self, Option.some.injEq] at hc
    exact hc ▸ hformat
  · simp only [act, Function.update_of_ne hpath] at hc
    exact h.keepsFormat path c hc

end GenerateRun.Clean

/-! ### The sample project -/

namespace Sample

theorem sumChar_length (c : Char) : (sumChar c).length = 2 := by
  unfold sumChar
  split <;> rfl

theorem sumChar_injective {c d : Char} (h : sumChar c = sumChar d) : c = d := by
  unfold sumChar at h
  split at h <;> split at h <;> simp_all

theorem sum_split : ∀ {xs ys r s : List Char},
    xs.flatMap sumChar ++ '|' :: r = ys.flatMap sumChar ++ '|' :: s → xs = ys ∧ r = s := by
  have hbar : ∀ (c : Char) (xs r s : List Char),
      '|' :: r ≠ (c :: xs).flatMap sumChar ++ s := by
    intro c xs r s
    rw [List.flatMap_cons, sumChar]
    split <;> simp
  intro xs
  induction xs with
  | nil =>
      intro ys r s h
      cases ys with
      | nil => exact ⟨rfl, List.tail_eq_of_cons_eq h⟩
      | cons y ys => exact absurd h (hbar y ys r _)
  | cons x xs ih =>
      intro ys r s h
      cases ys with
      | nil => exact absurd h.symm (hbar x xs s _)
      | cons y ys =>
          rw [List.flatMap_cons, List.flatMap_cons, List.append_assoc, List.append_assoc] at h
          obtain ⟨hhead, htail⟩ := List.append_inj h (by rw [sumChar_length, sumChar_length])
          obtain ⟨hxs, hrest⟩ := ih htail
          rw [sumChar_injective hhead, hxs]
          exact ⟨rfl, hrest⟩

theorem tools_documented : tools.Documented where
  md5_inj h := by
    obtain ⟨hname, hcontent⟩ := sum_split (String.ofList_injective h)
    have hbar := sum_split (congrArg (· ++ ['|']) hcontent)
    exact ⟨String.toList_injective hname, String.toList_injective hbar.1⟩
  md5_line name content := by
    have hchar : ∀ c, '\n' ∉ sumChar c := by
      intro c
      unfold sumChar
      split
      · decide
      · next hc => simp [Ne.symm hc]
    simp [tools, List.mem_flatMap, hchar]
  read_format _ := rfl

theorem mem_stamps_iff (file : SourceFile) : file ∈ withCodec.stamps ↔ (content file).isSome := by
  unfold content
  split_ifs <;> simp_all [withCodec, paths]

theorem clean_checkout : withCodec.Clean tools (checkout content) where
  files := mem_stamps_iff
  stamps := mem_stamps_iff
  noOrphan _ h := absurd h nofun
  keepsFormat _ _ _ := rfl
  packs _ := rfl
  formats _ := rfl
  cats := rfl
  converts := rfl

theorem stamped_checkout : Stamped tools (checkout content) :=
  (cacheInv_checkout tools content).stamped

def built : BuildFiles := rebuilt tools withCodec (checkout content)

theorem built_output : built.kernResources.isSome := by decide +kernel

theorem generate_checkout : generate tools withCodec (checkout content) = (built, .rebuilt) :=
  clean_checkout.generate_eq tools_documented stamped_checkout (Option.some_ne_none _).symm built_output

theorem act_checkout : (act tools (.generate withCodec) (checkout content)).1 = built := by
  rw [act, generate_checkout]

theorem generate_built : generate tools withCodec built = (built, .trusted) :=
  clean_checkout.generate_again built_output

/-- The files after the id of the codec has been edited. -/
def edited : BuildFiles :=
  (act tools (.edit (.plist "Resources/ALC292/Info") (some editedPlist)) built).1

theorem act_built :
    (act tools (.edit (.plist "Resources/ALC292/Info") (some editedPlist)) built).1 = edited := by
  rw [edited]

theorem clean_edited : withCodec.Clean tools edited :=
  clean_checkout.clean_rebuilt.edit rfl rfl

theorem stamped_edited : Stamped tools edited :=
  let hs := clean_checkout.stamped_rebuilt tools_documented stamped_checkout
  ⟨hs.stamp, hs.zlib⟩

def builtAgain : BuildFiles := rebuilt tools withCodec edited

theorem builtAgain_output :
    builtAgain.kernResources.isSome ∧ builtAgain.kernResources ≠ built.kernResources := by
  decide +kernel

theorem edited_info : (checkout content).content (.plist "Resources/ALC292/Info")
    ≠ edited.content (.plist "Resources/ALC292/Info") := by
  have hedited : edited.content = Function.update content _ (some editedPlist) := rfl
  rw [hedited, Function.update_self]
  decide

theorem generate_edited : generate tools withCodec edited = (builtAgain, .rebuilt) := by
  have hmd5 := clean_checkout.resourcesMd5_ne tools_documented clean_edited _ edited_info
  exact clean_edited.generate_eq tools_documented stamped_edited hmd5 builtAgain_output.1

def deleted : BuildFiles := (act tools (.edit (.plist "Resources/ALC292/Info") none) built).1

theorem deleted_content :
    deleted.content = Function.update content (.plist "Resources/ALC292/Info") none := rfl

theorem finds_deleted : withoutCodec.Finds tools deleted where
  xmls path := by
    simp [withoutCodec, withCodec, deleted_content, content]
  plists path := by
    simp only [withoutCodec, paths, deleted_content, Function.update_apply, content]
    split_ifs <;> simp_all
  stamps file := by
    have hsettled : Settled tools deleted := clean_checkout.settled_rebuilt.delete _
    have hstamp : deleted.stamp file = (content file).map (tools.md5 file.name) :=
      clean_checkout.refreshed_stamp file
    rw [formatted_of_settled hsettled, hstamp, Option.isSome_map]
    exact mem_stamps_iff file

theorem generate_deleted : generate tools withoutCodec deleted = (deleted, .trusted) := by
  have htrusted : (generate tools withCodec built).2 = .trusted := by rw [generate_built]
  have hstamps : withoutCodec.stamps = withCodec.stamps := rfl
  unfold deleted
  exact trusted_after_delete clean_checkout.settled_rebuilt htrusted hstamps rfl (.plist "Resources/ALC292/Info")

theorem deleted_incoherent : ¬Coherent tools deleted := by
  unfold Coherent
  decide +kernel

end Sample

/-! ### Build-cache coherence -/

def Action.Finds (T : Tools) : Action → BuildFiles → Prop
  | .edit _ _, _ => True
  | .generate r, s => r.Finds T s

def Action.Sound : Action → BuildFiles → Prop
  | .edit _ _, _ => True
  | .generate r, s => r.Sound s

/-- **Build-cache coherence.**  From a fresh checkout, through any edits and any builds that are sound,
a trusted `kern_resources.cpp` is what the converter makes of the resources at that time. -/
theorem trusts_coherent (hT : T.Documented) (content : SourceFile → Option String)
    (actions : List Action) (hfinds : AllSteps (act T) (Action.Finds T) actions (checkout content))
    (hsound : AllSteps (act T) Action.Sound actions (checkout content)) :
    TrustsCoherent T actions (checkout content) := by
  have hall : AllSteps (act T) (fun a s => a.Finds T s ∧ a.Sound s) actions (checkout content) :=
    fun before a after hsplit => ⟨hfinds before a after hsplit, hsound before a after hsplit⟩
  intro before r after hsplit htrusted
  have hinv : CacheInv T (run (act T) before (checkout content)) := by
    refine run_invariant_of_steps ?_ (hsplit ▸ hall).of_append (cacheInv_checkout T content)
    intro a s ha hs
    cases a with
    | edit file new => exact cacheInv_edit hs file new
    | generate r => exact (generate_sound hT ha.2 ha.1 hs).1
  obtain ⟨hr, hs⟩ := hall before (.generate r) after hsplit
  exact (generate_sound hT hs hr hinv).2 htrusted

/-- The sample project is built, the id of its codec is edited, and it is built twice: the first of
these builds writes another output, and the second one trusts it. -/
theorem trusts_coherent_sample :
    TrustsCoherent Sample.tools Sample.edition (checkout Sample.content) ∧
      run (act Sample.tools) (Sample.edition.take 3) (checkout Sample.content) = Sample.builtAgain ∧
      Sample.builtAgain.kernResources ≠ Sample.built.kernResources ∧
      generate Sample.tools Sample.withCodec Sample.builtAgain = (Sample.builtAgain, .trusted) := by
  have hedited : (act Sample.tools (.generate Sample.withCodec) Sample.edited).1
      = Sample.builtAgain := by rw [act, Sample.generate_edited]
  have hagain := Sample.clean_edited.clean_rebuilt
  have hstamped := Sample.clean_edited.stamped_rebuilt Sample.tools_documented Sample.stamped_edited
  refine ⟨trusts_coherent Sample.tools_documented Sample.content _ ?_ ?_, ?_,
    Sample.builtAgain_output.2, Sample.clean_edited.generate_again Sample.builtAgain_output.1⟩
  · refine .cons (Sample.clean_checkout.finds Sample.tools_documented Sample.stamped_checkout) ?_
    rw [Sample.act_checkout]
    refine .cons trivial ?_
    rw [Sample.act_built]
    refine .cons (Sample.clean_edited.finds Sample.tools_documented Sample.stamped_edited) ?_
    rw [hedited]
    exact .cons (hagain.finds Sample.tools_documented hstamped) (allSteps_nil _)
  · refine .cons Sample.clean_checkout.sound ?_
    rw [Sample.act_checkout]
    refine .cons trivial ?_
    rw [Sample.act_built]
    refine .cons Sample.clean_edited.sound ?_
    rw [hedited]
    exact .cons hagain.sound (allSteps_nil _)
  · rw [Sample.edition, List.take_succ_cons, run_cons, Sample.act_checkout, List.take_succ_cons,
      run_cons, Sample.act_built, List.take_succ_cons, run_cons, hedited, List.take_zero, run_nil]

/-- The codec is gone, and its tables are still in the output. -/
theorem not_trusts_coherent_sample :
    Sample.tools.Documented ∧
      AllSteps (act Sample.tools) (Action.Finds Sample.tools) Sample.deletion
        (checkout Sample.content) ∧
      ¬TrustsCoherent Sample.tools Sample.deletion (checkout Sample.content) := by
  refine ⟨Sample.tools_documented, ?_, ?_⟩
  · refine .cons (Sample.clean_checkout.finds Sample.tools_documented Sample.stamped_checkout)
      (.cons trivial (.cons ?_ (allSteps_nil _)))
    rw [Sample.act_checkout]
    exact Sample.finds_deleted
  · intro h
    have hrun : run (act Sample.tools) [.generate Sample.withCodec,
        .edit (.plist "Resources/ALC292/Info") none] (checkout Sample.content) = Sample.deleted := by
      rw [run_cons, Sample.act_checkout]
      rfl
    have hlast := h [.generate Sample.withCodec, .edit (.plist "Resources/ALC292/Info") none]
      Sample.withoutCodec [] rfl
    rw [hrun, Sample.generate_deleted] at hlast
    exact Sample.deleted_incoherent (hlast rfl)

end AppleALC.ResourceConverter
