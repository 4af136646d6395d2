import Mathlib.Data.List.Forall2
import Mathlib.Data.List.Perm.Basic
import AppleALC.ResourceConverter.CodecTables

/-!
# When tables hold a tree

Every dictionary of the tree is in the tables exactly once and with its own data: ids are the
numbers themselves, a kext is the slot that holds it, a file is the bytes at its path.  The codec
directories are held up to their order, since every vendor has a listing of its own.

* `Tables.Holds` — the statement, with a `ReadsAs` for every kind of dictionary;
* `Complete` — the ids have 16 bits and the files exist;
* `tablesOf_holds` — it is true of the tables of a tree.
-/

namespace AppleALC.ResourceConverter

variable (tree : ResourceTree) (vendors : List (String × ℕ)) (kexts : List (String × KextDict))
variable (directory : List DirectoryEntry)

/-! ### Codec directories -/

def codecDirectories : List (String × CodecDict) :=
  directory.filterMap fun entry => entry.2.map fun codec => (entry.1, codec)

def isOf (vendor : String × ℕ) (d : String × CodecDict) : Bool := d.2.vendor == some vendor.1

/-- The vendor of the codec directory is a key of `Vendors.plist`. -/
def hasVendor (d : String × CodecDict) : Bool := vendors.any fun vendor => isOf vendor d

/-- Everything a codec lists under `Files`. -/
def CodecDict.files (codec : CodecDict) : List FileDict :=
  codec.platforms.getD [] ++ codec.layouts.getD []

/-! ### Entries -/

/-- The entry holds the kext, its two flags aside. -/
structure KextDict.ReadsAs (kext : KextDict) (e : KextEntry) : Prop where
  id : e.id = kext.id
  paths : e.paths = kext.paths

/-- The entry holds the file, which exists. -/
structure FileDict.ReadsAs (dir : String) (p : FileDict) (e : File) : Prop where
  data : ∃ bytes, tree.contentsAtPath (filePath tree dir p) = some bytes ∧
    e.data = some bytes ∧ e.dataLength = UInt32.ofNat bytes.length
  minKernel : e.minKernel = p.minKernel.getD KernelAny
  maxKernel : e.maxKernel = p.maxKernel.getD KernelAny
  layout : e.layout = p.id

/-- The entry holds the patch, and points to the slot of its kext. -/
structure PatchDict.ReadsAs (p : PatchDict) (e : KextPatch) : Prop where
  kext : (kexts.map Prod.fst)[e.patch.kext]? = some p.name
  find : e.patch.find = p.find
  replace : e.patch.replace = p.replace
  size : e.patch.size = p.find.length ∧ e.patch.size = p.replace.length
  count : e.patch.count = p.count.getD 0
  minKernel : e.minKernel = p.minKernel.getD KernelAny
  maxKernel : e.maxKernel = p.maxKernel.getD KernelAny

/-- The entry holds the codec of the directory `d`. -/
structure CodecReadsAs (d : String × CodecDict) (e : CodecModInfo) : Prop where
  name : e.name = d.2.codecName
  codec : e.codec.toNat = d.2.codecID
  revisions : e.revisions = d.2.revisions.getD []
  platforms : Option.Rel (List.Forall₂ (FileDict.ReadsAs tree d.1)) d.2.platforms e.platforms
  layouts : Option.Rel (List.Forall₂ (FileDict.ReadsAs tree d.1)) d.2.layouts e.layouts
  patches : List.Forall₂ (PatchDict.ReadsAs kexts) (d.2.patches.getD []) e.patches

/-- The entry holds the controller.  An unknown vendor has no id to hold. -/
structure ControllerDict.ReadsAs (ctrl : ControllerDict) (e : ControllerModInfo) : Prop where
  name : e.name = ctrl.name
  vendor : ∀ v id, ctrl.vendor = some v → vendors.lookup v = some id → e.vendor.toNat = id
  device : e.device.toNat = ctrl.device
  revisions : e.revisions = ctrl.revisions.getD []
  platform : e.platform = ctrl.platform.getD PlatformAny
  computerModel : e.computerModel = computerModelOf ctrl.model
  patches : List.Forall₂ (PatchDict.ReadsAs kexts) (ctrl.patches.getD []) e.patches

/-- The entry holds the vendor, with all its codec directories. -/
structure VendorReadsAs (vendor : String × ℕ) (e : VendorModInfo) : Prop where
  name : e.name = vendor.1
  id : e.vendor.toNat = vendor.2
  codecs : ∃ listed, listed.Perm ((codecDirectories directory).filter (isOf vendor)) ∧
    List.Forall₂ (CodecReadsAs tree kexts) listed e.codecs

/-- **The tables hold the tree.** -/
structure Tables.Holds (ctrls : List ControllerDict) (tables : Tables) : Prop where
  kextList : List.Forall₂ (fun kext e => kext.2.ReadsAs e) kexts tables.kextList
  controllerMod : List.Forall₂ (ControllerDict.ReadsAs vendors kexts) ctrls tables.controllerMod
  vendorMod : List.Forall₂ (VendorReadsAs tree kexts directory) vendors tables.vendorMod
  codecMod : ∃ listed, listed.Perm ((codecDirectories directory).filter (hasVendor vendors)) ∧
    List.Forall₂ (CodecReadsAs tree kexts) listed
      (tables.vendorMod.flatMap VendorModInfo.codecs)

/-- The ids have 16 bits, and every file that a codec of a known vendor lists exists. -/
@[mk_iff]
structure Complete (ctrls : List ControllerDict) : Prop where
  vendorIds : ∀ vendor ∈ vendors, vendor.2 < 65536
  deviceIds : ∀ ctrl ∈ ctrls, ctrl.device < 65536
  codecIds : ∀ d ∈ codecDirectories directory, hasVendor vendors d → d.2.codecID < 65536
  files : ∀ d ∈ codecDirectories directory, hasVendor vendors d → ∀ p ∈ d.2.files,
    (tree.contentsAtPath (filePath tree d.1 p)).isSome

instance (ctrls : List ControllerDict) : Decidable (Complete tree vendors directory ctrls) :=
  decidable_of_iff _ (complete_iff tree vendors directory ctrls).symm

/-! ### The entries of the tables hold their dictionaries -/

variable {tree vendors kexts directory}

theorem forall₂_map_right {α β : Type} {r : α → β → Prop} {f : α → β} {xs : List α}
    (h : ∀ x ∈ xs, r x (f x)) : List.Forall₂ r xs (xs.map f) :=
  List.forall₂_map_right_iff.mpr (List.forall₂_same.mpr h)

theorem KextDict.entry_readsAs (kext : KextDict) : kext.ReadsAs kext.entry := ⟨rfl, rfl⟩

theorem FileDict.entry_readsAs {dir : String} {p : FileDict}
    (h : (tree.contentsAtPath (filePath tree dir p)).isSome) :
    p.ReadsAs tree dir (p.entry tree dir) where
  data := by
    obtain ⟨bytes, hbytes⟩ := Option.isSome_iff_exists.mp h
    refine ⟨bytes, hbytes, hbytes, ?_⟩
    show UInt32.ofNat ((tree.contentsAtPath (filePath tree dir p)).getD []).length = _
    rw [hbytes, Option.getD_some]
  minKernel := rfl
  maxKernel := rfl
  layout := rfl

theorem FileDict.entries_readAs {dir : String} {ps : Option (List FileDict)}
    (h : ∀ p ∈ ps.getD [], (tree.contentsAtPath (filePath tree dir p)).isSome) :
    Option.Rel (List.Forall₂ (FileDict.ReadsAs tree dir)) ps
      (ps.map fun ps => ps.map (FileDict.entry tree dir)) := by
  cases ps with
  | none => exact .none
  | some ps => exact .some (forall₂_map_right fun p hp => FileDict.entry_readsAs (h p hp))

theorem PatchDict.entry_readsAs {p : PatchDict} (h : p.Valid kexts) :
    p.ReadsAs kexts (p.entry kexts) where
  kext := List.getElem?_idxOf h.2
  find := rfl
  replace := rfl
  size := ⟨rfl, h.1⟩
  count := rfl
  minKernel := rfl
  maxKernel := rfl

theorem toNat_id {n : ℕ} (h : n < 65536) : (UInt16.ofNat n).toNat = n := by
  rw [UInt16.toNat_ofNat']
  exact Nat.mod_eq_of_lt h

theorem CodecDict.entry_readsAs {d : String × CodecDict} (hvalid : d.2.Valid kexts)
    (hid : d.2.codecID < 65536)
    (hfiles : ∀ p ∈ d.2.files, (tree.contentsAtPath (filePath tree d.1 p)).isSome) :
    CodecReadsAs tree kexts d (d.2.entry tree kexts d.1) where
  name := rfl
  codec := toNat_id hid
  revisions := rfl
  platforms := FileDict.entries_readAs fun p hp => hfiles p (List.mem_append_left _ hp)
  layouts := FileDict.entries_readAs fun p hp => hfiles p (List.mem_append_right _ hp)
  patches := forall₂_map_right fun p hp => PatchDict.entry_readsAs (hvalid.patches p hp)

theorem mem_of_lookup {v : String} {id : ℕ} (h : vendors.lookup v = some id) :
    (v, id) ∈ vendors := by
  obtain ⟨front, back, hsplit, -⟩ := List.lookup_eq_some_iff.mp h
  rw [hsplit]
  exact List.mem_append_right front List.mem_cons_self

theorem ControllerDict.entry_readsAs {ctrl : ControllerDict} (hvalid : ctrl.Valid kexts)
    (hvendors : ∀ vendor ∈ vendors, vendor.2 < 65536) (hdevice : ctrl.device < 65536) :
    ctrl.ReadsAs vendors kexts (ctrl.entry vendors kexts) where
  name := rfl
  vendor := by
    intro v id hv hlookup
    have hid := hvendors _ (mem_of_lookup hlookup)
    have hof : vendorOf vendors ctrl.vendor = id := by
      rw [vendorOf, hv, Option.bind_some, hlookup, Option.getD_some]
    show (UInt16.ofNat (vendorOf vendors ctrl.vendor)).toUInt32.toNat = id
    rw [hof, UInt16.toNat_toUInt32, toNat_id hid]
  device := by
    show (UInt16.ofNat ctrl.device).toUInt32.toNat = ctrl.device
    rw [UInt16.toNat_toUInt32, toNat_id hdevice]
  revisions := rfl
  platform := rfl
  computerModel := rfl
  patches := forall₂_map_right fun p hp => PatchDict.entry_readsAs (hvalid.patches p hp)

/-! ### Every codec directory exactly once -/

/-- The codecs of a vendor are the entries of its codec directories. -/
theorem filterMap_codecOf (vendor : String × ℕ) (entries : List DirectoryEntry) :
    entries.filterMap (codecOf tree kexts vendor.1) =
      ((codecDirectories entries).filter (isOf vendor)).map
        fun d => d.2.entry tree kexts d.1 := by
  induction entries with
  | nil => rfl
  | cons entry entries ih =>
      obtain ⟨dir, dict⟩ := entry
      cases dict with
      | none => exact ih
      | some codec =>
          have hdirs : codecDirectories ((dir, some codec) :: entries) =
              (dir, codec) :: codecDirectories entries := rfl
          rw [hdirs]
          by_cases hvendor : codec.vendor = some vendor.1
          · have hof : isOf vendor (dir, codec) = true := beq_iff_eq.mpr hvendor
            rw [List.filter_cons_of_pos hof, List.map_cons, ← ih]
            exact List.filterMap_cons_some (if_pos hvendor)
          · have hof : ¬isOf vendor (dir, codec) = true := mt beq_iff_eq.mp hvendor
            rw [List.filter_cons_of_neg hof, ← ih]
            exact List.filterMap_cons_none (if_neg hvendor)

/-- What is picked by one of several keys that exclude each other is picked once. -/
theorem flatMap_filter_perm {α κ : Type} {r : κ → α → Bool} (keys : List κ)
    (h : keys.Pairwise fun k l => ∀ x, r k x = true → r l x = false) (xs : List α) :
    (keys.flatMap fun k => xs.filter (r k)).Perm (xs.filter fun x => keys.any fun k => r k x) := by
  induction keys with
  | nil => simp
  | cons k keys ih =>
      obtain ⟨hk, hkeys⟩ := List.pairwise_cons.mp h
      have hfirst : xs.filter (r k) =
          (xs.filter fun x => r k x || keys.any fun l => r l x).filter (r k) := by
        rw [List.filter_filter]
        apply List.filter_congr
        intro x _
        cases r k x <;> rfl
      have hrest : (xs.filter fun x => keys.any fun l => r l x) =
          (xs.filter fun x => r k x || keys.any fun l => r l x).filter fun x => !r k x := by
        rw [List.filter_filter]
        apply List.filter_congr
        intro x _
        cases hx : r k x with
        | false => rfl
        | true =>
            have hnone : (keys.any fun l => r l x) = false := by
              rw [List.any_eq_false]
              intro l hl
              rw [hk l hl x hx]
              exact Bool.false_ne_true
            rw [hnone]
            rfl
      have hperm := (ih hkeys).append_left (xs.filter (r k))
      rw [List.flatMap_cons]
      refine hperm.trans ?_
      rw [hfirst, hrest]
      exact List.filter_append_perm _ _

theorem isOf_disjoint (hkeys : (vendors.map Prod.fst).Nodup) :
    vendors.Pairwise fun v w => ∀ d, isOf v d = true → isOf w d = false := by
  refine (List.pairwise_map.mp hkeys).imp ?_
  intro v w hne d hv
  have hvendor : d.2.vendor = some v.1 := beq_iff_eq.mp hv
  refine beq_false_of_ne ?_
  rw [hvendor]
  exact fun heq => hne (Option.some.inj heq)

theorem mem_codecDirectories {d : String × CodecDict} :
    d ∈ codecDirectories directory ↔ (d.1, some d.2) ∈ directory := by
  rw [codecDirectories, List.mem_filterMap]
  constructor
  · intro h
    obtain ⟨⟨dir, dict⟩, hentry, heq⟩ := h
    obtain ⟨codec, hcodec, rfl⟩ := Option.map_eq_some_iff.mp heq
    rw [← hcodec]
    exact hentry
  · intro h
    exact ⟨(d.1, some d.2), h, rfl⟩

theorem perm_codecDirectories {entries : List DirectoryEntry} (h : entries.Perm directory) :
    (codecDirectories entries).Perm (codecDirectories directory) := h.filterMap _

theorem hasVendor_of_isOf {vendor : String × ℕ} (hmem : vendor ∈ vendors) {d : String × CodecDict}
    (h : isOf vendor d = true) : hasVendor vendors d = true :=
  List.any_eq_true.mpr ⟨vendor, hmem, h⟩

/-- **The tables of a tree hold it**, for every order in which the directory is listed. -/
theorem tablesOf_holds {ctrls : List ControllerDict} (hkeys : (vendors.map Prod.fst).Nodup)
    (hdir : ∀ vendor ∈ vendors, (tree.contentsOfDirectory vendor.1).Perm directory)
    (hcodecs : ∀ d ∈ codecDirectories directory, hasVendor vendors d → d.2.Valid kexts)
    (hctrls : ∀ ctrl ∈ ctrls, ctrl.Valid kexts)
    (h : Complete tree vendors directory ctrls) :
    (tablesOf tree vendors kexts ctrls).Holds tree vendors kexts directory ctrls := by
  let own : String × ℕ → List (String × CodecDict) := fun vendor =>
    (codecDirectories (tree.contentsOfDirectory vendor.1)).filter (isOf vendor)
  have hown : ∀ vendor ∈ vendors,
      (own vendor).Perm ((codecDirectories directory).filter (isOf vendor)) :=
    fun vendor hvendor => (perm_codecDirectories (hdir vendor hvendor)).filter _
  have hreads : ∀ vendor ∈ vendors, ∀ d ∈ own vendor,
      CodecReadsAs tree kexts d (d.2.entry tree kexts d.1) := by
    intro vendor hvendor d hd
    obtain ⟨hmem, hof⟩ := List.mem_filter.mp ((hown vendor hvendor).mem_iff.mp hd)
    have hhas := hasVendor_of_isOf hvendor hof
    exact CodecDict.entry_readsAs (hcodecs d hmem hhas) (h.codecIds d hmem hhas)
      (h.files d hmem hhas)
  refine { kextList := ?_, controllerMod := ?_, vendorMod := ?_, codecMod := ?_ }
  · exact forall₂_map_right fun kext _ => kext.2.entry_readsAs
  · exact forall₂_map_right fun ctrl hctrl =>
      ControllerDict.entry_readsAs (hctrls ctrl hctrl) h.vendorIds (h.deviceIds ctrl hctrl)
  · refine forall₂_map_right fun vendor hvendor => ?_
    refine ⟨rfl, toNat_id (h.vendorIds vendor hvendor), own vendor, hown vendor hvendor, ?_⟩
    show List.Forall₂ _ _ ((tree.contentsOfDirectory vendor.1).filterMap _)
    rw [filterMap_codecOf]
    exact forall₂_map_right (hreads vendor hvendor)
  · refine ⟨vendors.flatMap own, ?_, ?_⟩
    · exact (List.Perm.flatMap_left vendors hown).trans
        (flatMap_filter_perm vendors (isOf_disjoint hkeys) _)
    · have hall : (tablesOf tree vendors kexts ctrls).vendorMod.flatMap VendorModInfo.codecs
          = (vendors.flatMap own).map fun d => d.2.entry tree kexts d.1 := by
        show (vendors.map (vendorEntry tree kexts)).flatMap VendorModInfo.codecs = _
        rw [List.flatMap_map, List.map_flatMap]
        apply List.flatMap_congr
        intro vendor _
        exact filterMap_codecOf vendor _
      rw [hall]
      refine forall₂_map_right fun d hd => ?_
      obtain ⟨vendor, hvendor, hmem⟩ := List.mem_flatMap.mp hd
      exact hreads vendor hvendor d hmem

end AppleALC.ResourceConverter
