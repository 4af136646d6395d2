import AppleALC.KernAlc.CodecBinding
import AppleALC.ResourceConverter.Faithful

/-!
# From `Info.plist` to the driver

The converter puts the files of a codec into its tables, and `updateResource` hands them to the
driver.  Between the two a file can get lost: for a path where there is no file the converter writes
a null pointer and goes on, and the extension hands that pointer out as a success.

* `PointsInto` / `stateAfter_pointsInto` — the mods of the codecs are those of the compiled tables;
* `Selects` — the `Files` entry that a request is for;
* `HandsOutFile` / `SelectedExists` — the reply is that file, and the file exists;
* `resource_data_faithful_iff` — these are the same.
-/

namespace AppleALC.ResourceConverter

open OutputMachine

/-! ### The codecs of the plugin -/

/-- The mods of the codecs are those of the table. -/
def PointsInto (vendorMod : List VendorModInfo) (alc : AlcEnabler) : Prop :=
  ∀ ci ∈ alc.codecs, ∀ info, ci.info = some info → ∃ vendor ∈ vendorMod, info ∈ vendor.codecs

theorem findCodecMod_mem {vendorMod : List VendorModInfo} {ci : CodecInfo} {info : CodecModInfo}
    (h : findCodecMod vendorMod ci = some info) : ∃ vendor ∈ vendorMod, info ∈ vendor.codecs := by
  unfold findCodecMod at h
  split at h
  · exact absurd h nofun
  · next vendor hvendor =>
    split at h
    · exact absurd h nofun
    · next m hm =>
      split at h
      · rw [Option.some.injEq] at h
        rw [← h]
        exact ⟨vendor, List.mem_of_find?_eq_some hvendor, List.mem_of_find?_eq_some hm⟩
      · exact absurd h nofun

section Runs

variable (cfg : Config) (boot : Boot) (table : List ControllerModInfo)

/-- **Step lemma.**  Validation is the only place where a codec gets its mod. -/
theorem pointsInto_step (load : KextLoad) (alc : AlcEnabler) (h : PointsInto cfg.res.vendorMod alc) :
    PointsInto cfg.res.vendorMod (processKext cfg load alc).1 := by
  by_cases hproceeds : ∃ k, Proceeds cfg load k
  · obtain ⟨k, hk⟩ := hproceeds
    have hcodecs := (processKext_same cfg hk alc).codecs
    rcases detect_cases cfg load k alc with ⟨-, hd⟩ | ⟨-, -, -, hd⟩ | ⟨-, -, hd⟩
    · rw [hd, grabControllers_eq] at hcodecs
      rw [PointsInto, hcodecs]
      exact h
    · rw [hd] at hcodecs
      rw [PointsInto, hcodecs]
      intro ci hci info hinfo
      obtain ⟨found, -, m, hm, rfl⟩ := (validateCodecs_spec cfg.res.vendorMod _).2 ci hci
      rw [← Option.some.inj hinfo]
      exact findCodecMod_mem hm
    · rw [hd] at hcodecs
      rw [PointsInto, hcodecs]
      exact h
  · rw [processKext_of_not_proceeds cfg (not_exists.mp hproceeds)]
    exact h

/-- **Run lemma.**  In every reachable state the mods of the codecs are those of the table. -/
theorem stateAfter_pointsInto (loads : List KextLoad) :
    PointsInto cfg.res.vendorMod (stateAfter cfg boot table loads) := by
  refine run_invariant (pointsInto_step cfg) loads ?_
  have hcodecs : (bootAlc cfg.lilu boot table).codecs = [] :=
    (updateProperties_booted cfg.lilu boot table).codecs
  rw [PointsInto, hcodecs]
  exact fun ci hci => absurd hci List.not_mem_nil

end Runs

/-! ### The selected entry -/

/-- The `Files` entries of one kind. -/
def entriesOf (type : Resource) (codec : CodecDict) : List FileDict :=
  match type with
  | .platform => codec.platforms.getD []
  | .layout => codec.layouts.getD []

/-- The entry is for this layout and this kernel. -/
def FileDict.IsFor (running layout : UInt32) (p : FileDict) : Prop :=
  p.id = layout ∧ Admits running (p.minKernel.getD KernelAny) (p.maxKernel.getD KernelAny)

/-- The first of the entries that is for this layout and this kernel. -/
def IsFirstFor (running layout : UInt32) (ps : List FileDict) (p : FileDict) : Prop :=
  ∃ pre post, ps = pre ++ p :: post ∧ p.IsFor running layout ∧ ∀ q ∈ pre, ¬q.IsFor running layout

/-- The codec has no file of this kind for the layout of its controller and this kernel. -/
def HasNoFile (running : UInt32) (controllers : List ControllerInfo) (type : Resource)
    (ci : CodecInfo) : Prop :=
  ∀ info c, ci.info = some info → controllers[ci.controller]? = some c →
    ∀ fi ∈ (type.files info).getD [],
      ¬(fi.layout = c.layout ∧ Admits running fi.minKernel fi.maxKernel)

/-- A codec directory that gets into the tables. -/
def IsCodecDirectory (tree : ResourceTree) (vendors : List (String × ℕ)) (d : String × CodecDict) :
    Prop :=
  ∃ vendor ∈ vendors, d ∈ codecDirectories (tree.contentsOfDirectory vendor.1) ∧ isOf vendor d

/-- A request selects the entry `p` of the codec directory `d`: it is the first suitable one of the
last codec that has any. -/
def Selects (tree : ResourceTree) (kexts : List (String × KextDict)) (running : UInt32)
    (controllers : List ControllerInfo) (codecs : List CodecInfo) (type : Resource)
    (d : String × CodecDict) (p : FileDict) : Prop :=
  ∃ front ci back c, codecs = front ++ ci :: back ∧
    ci.info = some (d.2.entry tree kexts d.1) ∧ controllers[ci.controller]? = some c ∧
    IsFirstFor running c.layout (entriesOf type d.2) p ∧
    ∀ later ∈ back, HasNoFile running controllers type later

theorem files_entry (tree : ResourceTree) (kexts : List (String × KextDict)) (dir : String)
    (type : Resource) (codec : CodecDict) :
    (type.files (codec.entry tree kexts dir)).getD [] =
      (entriesOf type codec).map (FileDict.entry tree dir) := by
  cases type with
  | platform => exact getD_map_nil _ codec.platforms
  | layout => exact getD_map_nil _ codec.layouts

theorem isFirstFor_or_none (running layout : UInt32) (ps : List FileDict) :
    (∃ p, IsFirstFor running layout ps p) ∨ ∀ p ∈ ps, ¬p.IsFor running layout := by
  induction ps with
  | nil => exact Or.inr fun p hp => absurd hp List.not_mem_nil
  | cons q ps ih =>
      by_cases hq : q.IsFor running layout
      · exact Or.inl ⟨q, [], ps, rfl, hq, fun p hp => absurd hp List.not_mem_nil⟩
      · rcases ih with ⟨p, pre, post, hsplit, hp, hpre⟩ | hnone
        · refine Or.inl ⟨p, q :: pre, post, by rw [hsplit]; rfl, hp, ?_⟩
          exact List.forall_mem_cons.mpr ⟨hq, hpre⟩
        · exact Or.inr (List.forall_mem_cons.mpr ⟨hq, hnone⟩)

/-! ### What a request does -/

theorem updateFromFiles_none {lilu : Lilu} {layout : UInt32} {files : List File}
    (h : ∀ fi ∈ files, ¬fi.isFor lilu layout = true) (reply : ResourceReply) :
    updateFromFiles lilu layout files reply = reply := by
  induction files with
  | nil => rfl
  | cons fi files ih =>
      obtain ⟨hfi, hfiles⟩ := List.forall_mem_cons.mp h
      rw [updateFromFiles, if_neg hfi, ih hfiles]

theorem updateFromFiles_first {lilu : Lilu} {layout : UInt32} {fi : File} {pre : List File}
    (hpre : ∀ other ∈ pre, ¬other.isFor lilu layout = true) (hfi : fi.isFor lilu layout = true)
    (post : List File) (reply : ResourceReply) :
    updateFromFiles lilu layout (pre ++ fi :: post) reply = .ofFile fi := by
  induction pre with
  | nil =>
      show updateFromFiles lilu layout (fi :: post) reply = _
      rw [updateFromFiles, if_pos hfi]
  | cons other pre ih =>
      obtain ⟨hother, hrest⟩ := List.forall_mem_cons.mp hpre
      show updateFromFiles lilu layout (other :: (pre ++ fi :: post)) reply = _
      rw [updateFromFiles, if_neg hother, ih hrest]

theorem updateFromCodec_eq {lilu : Lilu} {controllers : List ControllerInfo} {ci : CodecInfo}
    {info : CodecModInfo} {c : ControllerInfo} (hinfo : ci.info = some info)
    (hc : controllers[ci.controller]? = some c) (type : Resource) (reply : ResourceReply) :
    updateFromCodec lilu controllers type ci reply =
      updateFromFiles lilu c.layout ((type.files info).getD []) reply := by
  simp only [updateFromCodec, hinfo, Option.bind_some, hc]
  cases type.files info <;> rfl

section Requests

variable {tree : ResourceTree} {vendors : List (String × ℕ)} {kexts : List (String × KextDict)}
variable {lilu : Lilu} {running : UInt32} (hrange : lilu.ChecksRange running)
variable {controllers : List ControllerInfo} {codecs : List CodecInfo} {type : Resource}

include hrange

theorem FileDict.isFor_entry (dir : String) (layout : UInt32) (p : FileDict) :
    (p.entry tree dir).isFor lilu layout = true ↔ p.IsFor running layout :=
  File.isFor_iff hrange layout (p.entry tree dir)

theorem updateFromCodec_of_hasNoFile {ci : CodecInfo}
    (h : HasNoFile running controllers type ci) (reply : ResourceReply) :
    updateFromCodec lilu controllers type ci reply = reply := by
  rcases hinfo : ci.info with _ | info
  · simp only [updateFromCodec, hinfo, Option.bind_none]
  · rcases hc : controllers[ci.controller]? with _ | c
    · simp only [updateFromCodec, hinfo, Option.bind_some, hc]
      cases type.files info <;> rfl
    · rw [updateFromCodec_eq hinfo hc]
      refine updateFromFiles_none (fun fi hfi hfor => ?_) reply
      exact h info c hinfo hc fi hfi ((File.isFor_iff hrange c.layout fi).mp hfor)

/-- Codecs without a suitable file leave the outputs alone. -/
theorem foldl_of_hasNoFile (h : ∀ ci ∈ codecs, HasNoFile running controllers type ci)
    (reply : ResourceReply) :
    codecs.foldl (fun reply ci => updateFromCodec lilu controllers type ci reply) reply = reply := by
  induction codecs with
  | nil => rfl
  | cons ci codecs ih =>
      obtain ⟨hci, hcodecs⟩ := List.forall_mem_cons.mp h
      rw [List.foldl_cons, updateFromCodec_of_hasNoFile hrange hci, ih hcodecs]

/-- **The selected entry is what the driver gets**, whatever the outputs were before. -/
theorem foldl_of_selects {d : String × CodecDict} {p : FileDict}
    (h : Selects tree kexts running controllers codecs type d p) (reply : ResourceReply) :
    codecs.foldl (fun reply ci => updateFromCodec lilu controllers type ci reply) reply =
      .ofFile (p.entry tree d.1) := by
  obtain ⟨front, ci, back, c, hcodecs, hinfo, hc, hfirst, hback⟩ := h
  obtain ⟨pre, post, hsplit, hp, hpre⟩ := hfirst
  have hfiles : (type.files (d.2.entry tree kexts d.1)).getD [] =
      pre.map (FileDict.entry tree d.1) ++
        p.entry tree d.1 :: post.map (FileDict.entry tree d.1) := by
    rw [files_entry, hsplit, List.map_append, List.map_cons]
  have hno : ∀ other ∈ pre.map (FileDict.entry tree d.1), ¬other.isFor lilu c.layout = true := by
    intro other hother
    obtain ⟨q, hq, rfl⟩ := List.mem_map.mp hother
    exact mt (FileDict.isFor_entry hrange d.1 c.layout q).mp (hpre q hq)
  rw [hcodecs, List.foldl_append, List.foldl_cons, foldl_of_hasNoFile hrange hback,
    updateFromCodec_eq hinfo hc, hfiles]
  exact updateFromFiles_first hno ((FileDict.isFor_entry hrange d.1 c.layout p).mpr hp) _ _

omit hrange in
/-- Some entry is selected, or no codec has a suitable file. -/
theorem selects_or_none (h : ∀ ci ∈ codecs, ∀ info, ci.info = some info →
      ∃ d, IsCodecDirectory tree vendors d ∧ info = d.2.entry tree kexts d.1) :
    (∃ d p, IsCodecDirectory tree vendors d ∧
      Selects tree kexts running controllers codecs type d p) ∨
      ∀ ci ∈ codecs, HasNoFile running controllers type ci := by
  induction codecs with
  | nil => exact Or.inr fun ci hci => absurd hci List.not_mem_nil
  | cons ci codecs ih =>
      obtain ⟨hci, hcodecs⟩ := List.forall_mem_cons.mp h
      rcases ih hcodecs with ⟨d, p, hd, front, ci', back, c, hsplit, hrest⟩ | hnone
      · exact Or.inl ⟨d, p, hd, ci :: front, ci', back, c, by rw [hsplit]; rfl, hrest⟩
      · by_cases hno : HasNoFile running controllers type ci
        · exact Or.inr (List.forall_mem_cons.mpr ⟨hno, hnone⟩)
        · -- the codec has a suitable file, hence a first one
          rw [HasNoFile] at hno
          push Not at hno
          obtain ⟨info, c, hinfo, hc, fi, hfi, hlayout, hadmits⟩ := hno
          obtain ⟨d, hd, rfl⟩ := hci info hinfo
          rcases isFirstFor_or_none running c.layout (entriesOf type d.2) with ⟨p, hp⟩ | hall
          · exact Or.inl ⟨d, p, hd, [], ci, codecs, c, rfl, hinfo, hc, hp, hnone⟩
          · rw [files_entry] at hfi
            obtain ⟨q, hq, rfl⟩ := List.mem_map.mp hfi
            exact absurd ⟨hlayout, hadmits⟩ (hall q hq)

/-- The file that a request selects exists, and its length is a 32-bit number. -/
def SelectedExists (tree : ResourceTree) (vendors : List (String × ℕ))
    (kexts : List (String × KextDict)) (running : UInt32) (alc : AlcEnabler) (type : Resource) :
    Prop :=
  ∀ d p, IsCodecDirectory tree vendors d →
    Selects tree kexts running alc.controllers alc.codecs type d p →
      ∃ bytes, tree.contentsAtPath (filePath tree d.1 p) = some bytes ∧ bytes.length < UInt32.size

/-- **What the driver should get**: when a request overwrites the outputs, it reports success and
hands out the bytes and the length of the existing file that the selected entry names. -/
def HandsOutFile (tree : ResourceTree) (vendors : List (String × ℕ))
    (kexts : List (String × KextDict)) (lilu : Lilu) (running : UInt32) (alc : AlcEnabler)
    (type : Resource) : Prop :=
  ∀ reply, updateResource lilu alc type reply ≠ reply →
    ∃ d p bytes length, IsCodecDirectory tree vendors d ∧
      Selects tree kexts running alc.controllers alc.codecs type d p ∧
      tree.contentsAtPath (filePath tree d.1 p) = some bytes ∧
      updateResource lilu alc type reply =
        { result := kOSReturnSuccess, resourceData := some bytes, resourceDataLength := length } ∧
      length.toNat = bytes.length

omit hrange in
/-- The mods of the compiled tables come from codec directories. -/
theorem PointsInto.directory {alc : AlcEnabler} {ctrls : List ControllerDict}
    (h : PointsInto (tablesOf tree vendors kexts ctrls).vendorMod alc) :
    ∀ ci ∈ alc.codecs, ∀ info, ci.info = some info →
      ∃ d, IsCodecDirectory tree vendors d ∧ info = d.2.entry tree kexts d.1 := by
  intro ci hci info hinfo
  obtain ⟨e, he, hmem⟩ := h ci hci info hinfo
  obtain ⟨vendor, hvendor, rfl⟩ := List.mem_map.mp he
  have hcodecs : (vendorEntry tree kexts vendor).codecs =
      (tree.contentsOfDirectory vendor.1).filterMap (codecOf tree kexts vendor.1) := rfl
  rw [hcodecs, filterMap_codecOf] at hmem
  obtain ⟨d, hd, rfl⟩ := List.mem_map.mp hmem
  obtain ⟨hd, hof⟩ := List.mem_filter.mp hd
  exact ⟨d, ⟨vendor, hvendor, hd, hof⟩, rfl⟩

theorem handsOutFile_iff {alc : AlcEnabler} {ctrls : List ControllerDict}
    (h : PointsInto (tablesOf tree vendors kexts ctrls).vendorMod alc) (type : Resource) :
    HandsOutFile tree vendors kexts lilu running alc type ↔
      SelectedExists tree vendors kexts running alc type := by
  constructor
  · intro hfile d p hd hselects
    have hreply := foldl_of_selects hrange hselects ⟨1, none, 0⟩
    have hne : updateResource lilu alc type ⟨1, none, 0⟩ ≠ ⟨1, none, 0⟩ := by
      intro heq
      rw [updateResource, hreply] at heq
      have hresult : kOSReturnSuccess = 1 := congrArg ResourceReply.result heq
      exact absurd hresult (by decide)
    obtain ⟨-, -, bytes, length, -, -, -, hbytes, hlength⟩ := hfile _ hne
    rw [updateResource, hreply] at hbytes
    have hdata : tree.contentsAtPath (filePath tree d.1 p) = some bytes :=
      congrArg ResourceReply.resourceData hbytes
    exact ⟨bytes, hdata, hlength ▸ length.toNat_lt⟩
  · intro hexists reply hne
    rcases selects_or_none h.directory with ⟨d, p, hd, hselects⟩ | hnone
    · have hreply := foldl_of_selects hrange hselects reply
      obtain ⟨bytes, hbytes, hsize⟩ := hexists d p hd hselects
      refine ⟨d, p, bytes, _, hd, hselects, hbytes, ?_, UInt32.toNat_ofNat_of_lt' hsize⟩
      rw [updateResource, hreply, ResourceReply.ofFile, FileDict.entry, hbytes, Option.getD_some]
    · exact absurd (foldl_of_hasNoFile hrange hnone reply) hne

/-- **Resource data are faithful exactly where the files exist.**  For a tree that the converter can
write, compiled into the extension, in every state whose codecs have mods of the compiled tables: a
request hands out the file that the selected `Files` entry names if and only if that file exists (and
its length is a 32-bit number). -/
theorem resource_data_faithful_iff {ctrls : List ControllerDict}
    (hvendors : tree.vendors = some vendors) (hkexts : tree.kexts = some kexts)
    (hctrls : tree.ctrls = some ctrls) (hwritable : Writable tree vendors kexts ctrls) :
    ∃ output tables, resourceConverter tree = some output ∧ readBack output = some tables ∧
      ∀ alc, PointsInto tables.vendorMod alc → ∀ type,
        HandsOutFile tree vendors kexts lilu running alc type ↔
          SelectedExists tree vendors kexts running alc type := by
  obtain ⟨output, -, houtput, -, -, hread⟩ :=
    readBack_resourceConverter hvendors hkexts hctrls hwritable
  exact ⟨output, _, houtput, hread, fun alc h type => handsOutFile_iff hrange h type⟩

end Requests

/-- The sample machine with compiled tables, after some calls. -/
def Sample.machine (tables : Tables) (loads : List KextLoad) : AlcEnabler :=
  stateAfter { Sample.config with res := { Sample.resources with vendorMod := tables.vendorMod } }
    (Sample.boot []) Sample.controllerMod loads

/-- With all its files in place, every request on the sample machine hands out a file. -/
theorem resource_data_faithful_iff_sample :
    ∃ output tables, resourceConverter Sample.complete = some output ∧
      readBack output = some tables ∧ ∀ loads type,
        HandsOutFile Sample.complete Sample.vendors Sample.kexts Sample.config.lilu 19
          (Sample.machine tables loads) type := by
  obtain ⟨output, tables, houtput, hread, hiff⟩ := resource_data_faithful_iff
    (Lilu.documented_checksRange 19 4) rfl rfl rfl writable_complete
  refine ⟨output, tables, houtput, hread, fun loads type => ?_⟩
  refine (hiff _ ?_ type).mpr fun d p _ _ => ⟨_, rfl, by decide⟩
  exact stateAfter_pointsInto { Sample.config with
    res := { Sample.resources with vendorMod := tables.vendorMod } } _ _ loads

/-- Without the files the converter succeeds all the same, and the layout request of the sample
machine reports success with a null pointer. -/
theorem not_handsOutFile_sample :
    ∃ output tables, resourceConverter Sample.missing = some output ∧
      readBack output = some tables ∧
      updateResource Sample.config.lilu
          (Sample.machine tables [Sample.load [] 12, Sample.load [] 11]) .layout ⟨1, some [], 0⟩
        = ⟨kOSReturnSuccess, none, 0⟩ ∧
      ¬HandsOutFile Sample.missing Sample.vendors Sample.kexts Sample.config.lilu 19
        (Sample.machine tables [Sample.load [] 12, Sample.load [] 11]) .layout := by
  obtain ⟨output, -, houtput, -, -, hread⟩ :=
    readBack_resourceConverter rfl rfl rfl writable_missing
  have hreply : updateResource Sample.config.lilu (Sample.machine
      (tablesOf Sample.missing Sample.vendors Sample.kexts Sample.ctrls)
      [Sample.load [] 12, Sample.load [] 11]) .layout ⟨1, some [], 0⟩
        = ⟨kOSReturnSuccess, none, 0⟩ := by decide
  refine ⟨output, _, houtput, hread, hreply, fun hfile => ?_⟩
  obtain ⟨d, p, bytes, length, -, -, -, hbytes, -⟩ :=
    hfile ⟨1, some [], 0⟩ (by rw [hreply]; decide)
  rw [hreply] at hbytes
  exact absurd (congrArg ResourceReply.resourceData hbytes) nofun

end AppleALC.ResourceConverter
