import AppleALC.ResourceConverter.Holds

/-!
# The converter is faithful

The text that `ResourceConverter` writes is well scoped and denotes the tables of the tree, whatever
the order in which dictionaries and directories are enumerated: nothing is lost, nothing is there
twice, and every entry has the data of its own dictionary.

* `Writable` — a tree that the converter can write;
* `readBack_resourceConverter` — the text reads back as the tables of the tree;
* `converter_faithful` — which hold the tree.
-/

namespace AppleALC.ResourceConverter

open Numeral SourceText Initializer Definitions OutputMachine

/-! ### The text denotes the tables of the tree -/

/-- A tree that the converter can write: its names need no escaping, and its patches have matching
lengths and kexts of `Kexts.plist`. -/
@[mk_iff]
structure Writable (tree : ResourceTree) (vendors : List (String × ℕ))
    (kexts : List (String × KextDict)) (ctrls : List ControllerDict) : Prop where
  vendorKeys : (vendors.map Prod.fst).Nodup
  kextValid : ∀ kext ∈ kexts, kext.2.Valid
  vendorValid : ∀ vendor ∈ vendors, VendorValid tree kexts vendor.1
  ctrlValid : ∀ ctrl ∈ ctrls, ctrl.Valid kexts

instance (tree : ResourceTree) (vendors : List (String × ℕ)) (kexts : List (String × KextDict))
    (ctrls : List ControllerDict) : Decidable (Writable tree vendors kexts ctrls) :=
  decidable_of_iff _ (writable_iff tree vendors kexts ctrls).symm

theorem writable_complete :
    Writable Sample.complete Sample.vendors Sample.kexts Sample.ctrls := by decide

theorem writable_missing :
    Writable Sample.missing Sample.vendors Sample.kexts Sample.ctrls := by decide

variable {tree : ResourceTree} {vendors : List (String × ℕ)} {kexts : List (String × KextDict)}
variable {ctrls : List ControllerDict}

/-- Names that start differently from all path lists are none of the kext names. -/
theorem not_mem_kextNames {name : String} (hpath : Apart name "kextPath")
    (hlist : name ≠ "kextList") (hsize : name ≠ "kextListSize") (n : ℕ) :
    name ∉ "kextListSize" :: "kextList" :: pathNames n :=
  List.not_mem_cons_of_ne_of_not_mem hsize
    (List.not_mem_cons_of_ne_of_not_mem hlist (not_mem_pathNames hpath n))

theorem codecName_not_mem_kextNames (vendor : String) (n : ℕ) :
    "codecMod" ++ vendor ∉ "kextListSize" :: "kextList" :: pathNames n := by
  have hsize := ((show Apart "kextListSize" "codecMod" by decide).ne vendor).symm
  have hlist := ((show Apart "kextList" "codecMod" by decide).ne vendor).symm
  refine List.not_mem_cons_of_ne_of_not_mem hsize (List.not_mem_cons_of_ne_of_not_mem hlist ?_)
  intro hmem
  obtain ⟨i, -, heq⟩ := mem_pathNames hmem
  exact (show Apart "codecMod" "kextPath" by decide).append_ne vendor (decimal i) heq

theorem not_mem_vendorNames {name : String} (hpath : Apart name "kextPath")
    (hcodec : Apart name "codecMod")
    (hfixed : name ∉ ["kextList", "kextListSize", "vendorMod", "vendorModSize"]) (n : ℕ) :
    name ∉ "vendorModSize" :: "vendorMod" ::
      (codecNames vendors ++ "kextListSize" :: "kextList" :: pathNames n) := by
  simp only [List.mem_cons, List.not_mem_nil, or_false, not_or] at hfixed
  obtain ⟨hlist, hlistSize, hmod, hmodSize⟩ := hfixed
  have hkext := not_mem_kextNames hpath hlist hlistSize n
  exact List.not_mem_cons_of_ne_of_not_mem hmodSize
    (List.not_mem_cons_of_ne_of_not_mem hmod (not_mem_codecNames hcodec hkext vendors))

/-- **The text denotes the tables of the tree**, and defines every name once and before its first
use. -/
theorem readBack_resourceConverter (hvendors : tree.vendors = some vendors)
    (hkexts : tree.kexts = some kexts) (hctrls : tree.ctrls = some ctrls)
    (h : Writable tree vendors kexts ctrls) :
    ∃ output ds, resourceConverter tree = some output ∧ declarations output = some ds ∧
      WellScoped language ds ∧ readBack output = some (tablesOf tree vendors kexts ctrls) := by
  have hstart : Tracked tree [] (({} : Converter).appendFile resourceHeader) [] :=
    { defines := defines_nothing (by decide)
      names := fun n hn => absurd hn List.not_mem_nil
      apart := fun n hn => absurd hn List.not_mem_nil
      files := fun path i hi => absurd hi nofun
      buffers := fun patch i hi => absurd hi nofun }
  obtain ⟨scope1, htracked1, hlist, hlistSize, hslots⟩ := generateKexts_spec hstart h.kextValid
  obtain ⟨scope2, htracked2, hext2, hmod, hmodSize⟩ := generateVendors_spec htracked1 hslots
    h.vendorKeys h.vendorValid (fun vendor => codecName_not_mem_kextNames vendor kexts.length)
    (not_mem_kextNames (by decide) (by decide) (by decide) _)
    (not_mem_kextNames (by decide) (by decide) (by decide) _)
  obtain ⟨scope3, htracked3, hext3, hctrl, hctrlSize⟩ := generateControllers_spec htracked2
    (hslots.mono hext2) vendors h.ctrlValid
    (not_mem_vendorNames (by decide) (by decide) (by decide) _)
    (not_mem_vendorNames (by decide) (by decide) (by decide) _)
  obtain ⟨ds, htext, hresolve⟩ := htracked3.defines
  have hds := declarations_of_text htext
  refine ⟨_, ds, ?_, hds, resolve_wellScoped hresolve, ?_⟩
  · simp only [resourceConverter, hvendors, hkexts, hctrls]
  · have hext := hext2.trans hext3
    have hsized1 : readSized scope3 Value.asKexts "kextList" "kextListSize"
        = some (kexts.map fun kext => kext.2.entry) := by
      rw [readSized, hext _ _ hlist, hext _ _ hlistSize]
      exact if_pos (List.length_map _)
    have hsized2 : readSized scope3 Value.asVendors "vendorMod" "vendorModSize"
        = some (vendors.map (vendorEntry tree kexts)) := by
      rw [readSized, hext3 _ _ hmod, hext3 _ _ hmodSize]
      exact if_pos (List.length_map _)
    have hsized3 : readSized scope3 Value.asControllers "controllerMod" "controllerModSize"
        = some (ctrls.map (ControllerDict.entry vendors kexts)) := by
      rw [readSized, hctrl, hctrlSize]
      exact if_pos (List.length_map _)
    simp only [readBack, hds, hresolve, hsized1, hsized2, hsized3, Option.bind_eq_bind,
      Option.bind_some]
    rfl

/-! ### The tables hold the tree -/

theorem Writable.codecValid (h : Writable tree vendors kexts ctrls)
    {directory : List DirectoryEntry}
    (hdir : ∀ vendor ∈ vendors, (tree.contentsOfDirectory vendor.1).Perm directory)
    {d : String × CodecDict} (hd : d ∈ codecDirectories directory) (hhas : hasVendor vendors d) :
    d.2.Valid kexts := by
  obtain ⟨vendor, hvendor, hof⟩ := List.any_eq_true.mp hhas
  have hentry := (hdir vendor hvendor).mem_iff.mpr (mem_codecDirectories.mp hd)
  exact (h.vendorValid vendor hvendor).codecs _ hentry d.2 rfl (beq_iff_eq.mp hof)

/-- **The converter is faithful.**  For a tree with 16-bit ids whose names need no escaping, whose
listed files exist, and whose patches have matching lengths and kexts of `Kexts.plist`, in whatever
order the dictionaries and the directory are enumerated: the text defines every name once and before
its first use, and it denotes tables that hold every kext, controller, vendor and codec directory of
the tree exactly once, with its own data. -/
theorem converter_faithful {directory : List DirectoryEntry} (hvendors : tree.vendors = some vendors)
    (hkexts : tree.kexts = some kexts) (hctrls : tree.ctrls = some ctrls)
    (hdir : ∀ vendor ∈ vendors, (tree.contentsOfDirectory vendor.1).Perm directory)
    (hwritable : Writable tree vendors kexts ctrls)
    (hcomplete : Complete tree vendors directory ctrls) :
    ∃ output ds tables, resourceConverter tree = some output ∧ declarations output = some ds ∧
      WellScoped language ds ∧ readBack output = some tables ∧
      tables.Holds tree vendors kexts directory ctrls := by
  obtain ⟨output, ds, houtput, hds, hscoped, hread⟩ :=
    readBack_resourceConverter hvendors hkexts hctrls hwritable
  refine ⟨output, ds, _, houtput, hds, hscoped, hread, ?_⟩
  exact tablesOf_holds hwritable.vendorKeys hdir (fun d hd => hwritable.codecValid hdir hd)
    hwritable.ctrlValid hcomplete

/-- The sample tree, whose directory is listed in two orders. -/
theorem converter_faithful_sample :
    ∃ output ds tables, resourceConverter Sample.complete = some output ∧
      declarations output = some ds ∧ WellScoped language ds ∧ readBack output = some tables ∧
      tables.Holds Sample.complete Sample.vendors Sample.kexts Sample.directory Sample.ctrls :=
  converter_faithful rfl rfl rfl (by decide) writable_complete (by decide)

end AppleALC.ResourceConverter
