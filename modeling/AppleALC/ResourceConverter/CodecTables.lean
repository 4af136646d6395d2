import AppleALC.ResourceConverter.FileTables
import AppleALC.ResourceConverter.KextTable

/-!
# The codec, vendor and controller tables

A codec entry is put together from the texts that four generators return, each with its own tables
written at different times; since what a text denotes stays while the scope grows, the entry denotes
the codec.  The codecs of a vendor are collected until their directory is done, the vendors until
all of these are, and the controllers come last.

* `CodecDict.Valid` / `ControllerDict.Valid` — the names and the patches can be written;
* `generateCodecs_spec`, `generateVendors_spec`, `generateControllers_spec` — the text that is
  written denotes the entries.
-/

namespace AppleALC.ResourceConverter

open Numeral SourceText Initializer Definitions OutputMachine

variable {tree : ResourceTree} {others : List String} {c : Converter}
variable {scope scope' : Scope String Value}
variable {kexts : List (String × KextDict)} {kextIndexes : List (String × ℕ)}

/-- A codec whose name needs no escaping and whose patches can be written. -/
@[mk_iff]
structure CodecDict.Valid (kexts : List (String × KextDict)) (codec : CodecDict) : Prop where
  name : IsPlain codec.codecName
  patches : ∀ p ∈ codec.patches.getD [], p.Valid kexts

instance (codec : CodecDict) : Decidable (codec.Valid kexts) :=
  decidable_of_iff _ (CodecDict.valid_iff kexts codec).symm

/-- A controller whose name needs no escaping and whose patches can be written. -/
@[mk_iff]
structure ControllerDict.Valid (kexts : List (String × KextDict)) (ctrl : ControllerDict) :
    Prop where
  name : IsPlain ctrl.name
  patches : ∀ p ∈ ctrl.patches.getD [], p.Valid kexts

instance (ctrl : ControllerDict) : Decidable (ctrl.Valid kexts) :=
  decidable_of_iff _ (ControllerDict.valid_iff kexts ctrl).symm

/-! ### Ids -/

theorem unsignedShortValue_lt (n : ℕ) : unsignedShortValue n < 65536 :=
  Nat.mod_lt n (by omega)

theorem denotes_id16 (scope : Scope String Value) (n : ℕ) :
    Denotes scope (fun _ => readUInt16) (hexNumeral (unsignedShortValue n)) (UInt16.ofNat n) := by
  have hid := (denotes_hexNumeral scope (unsignedShortValue n)).uint16 (unsignedShortValue_lt n)
  have hmod : UInt16.ofNat (unsignedShortValue n) = UInt16.ofNat n := UInt16.ofNat_mod_size
  rw [hmod] at hid
  exact hid

theorem denotes_id32 (scope : Scope String Value) (n : ℕ) :
    Denotes scope (fun _ => readUInt32) (hexNumeral (unsignedShortValue n))
      (UInt16.ofNat n).toUInt32 := by
  have hlt := unsignedShortValue_lt n
  have hid := (denotes_hexNumeral scope (unsignedShortValue n)).uint32
    (show unsignedShortValue n < 4294967296 by omega)
  have hmod : UInt32.ofNat (unsignedShortValue n) = (UInt16.ofNat n).toUInt32 := by
    rw [← UInt32.toNat_inj, UInt32.toNat_ofNat', UInt16.toNat_toUInt32, UInt16.toNat_ofNat']
    show n % 65536 % 4294967296 = n % 65536
    omega
  rw [hmod] at hid
  exact hid

/-! ### Codecs -/

theorem getD_map_nil {α β : Type} (f : α → β) (xs : Option (List α)) :
    (xs.map fun ys => ys.map f).getD [] = (xs.getD []).map f := by
  cases xs <;> rfl

/-- The entry of one codec. -/
theorem denotesAll_codec (dir : String) {codec : CodecDict} (hname : IsPlain codec.codecName)
    {revs platforms layouts patches : String}
    (hrevs : DenotesArray scope Value.asNumbers revs codec.revisions)
    (hplatforms : DenotesArray scope Value.asFiles platforms
      (codec.platforms.map fun ps => ps.map (FileDict.entry tree dir)))
    (hlayouts : DenotesArray scope Value.asFiles layouts
      (codec.layouts.map fun ps => ps.map (FileDict.entry tree dir)))
    (hpatches : DenotesArray scope Value.asPatches patches
      (codec.patches.map fun ps => ps.map (PatchDict.entry kexts))) :
    DenotesAll scope readCodec ("\t\x7b " ++ fields [quoted codec.codecName,
      hexNumeral (unsignedShortValue codec.codecID), revs, platforms, layouts, patches]
      ++ " \x7d,\n") [codec.entry tree kexts dir] := by
  obtain ⟨name, htext1, hscope1, hread1⟩ := denotes_quoted scope hname
  obtain ⟨id, htext2, hscope2, hread2⟩ := denotes_id16 scope codec.codecID
  obtain ⟨p3, c3, htext3, hscope3, -, hread3⟩ := hrevs
  obtain ⟨p4, c4, htext4, hscope4, -, hread4⟩ := hplatforms
  obtain ⟨p5, c5, htext5, hscope5, -, hread5⟩ := hlayouts
  obtain ⟨p6, c6, htext6, hscope6, -, hread6⟩ := hpatches
  have hbody := textItems_fields (List.cons_ne_nil _ _) (.cons htext1 (.cons htext2
    (.cons htext3 (.cons htext4 (.cons htext5 (.cons htext6 .nil))))))
  refine denotesAll_entry hbody endsEntry_line (hscope1.append (hscope2.append (hscope3.append
    (hscope4.append (hscope5.append hscope6))))) fun scope' hext => ?_
  have h1 := hread1 scope' hext
  have h2 := hread2 scope' hext
  have h3 := hread3 scope' hext
  have h4 := hread4 scope' hext
  have h5 := hread5 scope' hext
  have h6 := hread6 scope' hext
  show readCodec scope' (.braces [name, id, p3, c3, p4, c4, p5, c5, p6, c6]) = _
  simp only [readCodec, h1, h2, h3, h4, h5, h6, Option.bind_eq_bind, Option.bind_some, getD_map_nil]
  rfl

/-- What the codec loop has collected after the entries `done`. -/
def CodecsDone (tree : ResourceTree) (others : List String) (kexts : List (String × KextDict))
    (vendor : String) (scope : Scope String Value) (done : List DirectoryEntry) (s : CodecText) :
    Prop :=
  ∃ scope' body, Tracked tree others s.c scope' ∧ Extends scope scope' ∧
    s.codecModSection = "static CodecModInfo " ++ ("codecMod" ++ vendor) ++ "[] \x7b\n" ++ body ∧
    DenotesAll scope' readCodec body (done.filterMap (codecOf tree kexts vendor)) ∧
    s.codecs = (done.filterMap (codecOf tree kexts vendor)).length

/-- A directory that is no codec directory of the vendor. -/
theorem CodecsDone.skip {vendor : String} {done : List DirectoryEntry} {s : CodecText}
    (h : CodecsDone tree others kexts vendor scope done s) {entry : DirectoryEntry}
    (hnone : codecOf tree kexts vendor entry = none) :
    CodecsDone tree others kexts vendor scope (done ++ [entry]) s := by
  have hsame : (done ++ [entry]).filterMap (codecOf tree kexts vendor)
      = done.filterMap (codecOf tree kexts vendor) := by
    rw [List.filterMap_append, List.filterMap_cons_none hnone, List.filterMap_nil, List.append_nil]
  rw [CodecsDone, hsame]
  exact h

/-- A codec directory of the vendor. -/
theorem CodecsDone.add {vendor : String} {done : List DirectoryEntry} {s : CodecText}
    (h : CodecsDone tree others kexts vendor scope done s)
    (hslots : KextSlots kexts kextIndexes scope) {dir : String} {codec : CodecDict}
    (hvendor : codec.vendor = some vendor) (hcodec : codec.Valid kexts) :
    CodecsDone tree others kexts vendor scope (done ++ [(dir, some codec)])
      (codecStep tree kextIndexes vendor s (dir, some codec)) := by
  obtain ⟨scope0, body, htracked, hext, htext, hbody, hcount⟩ := h
  obtain ⟨scope1, htracked1, hext1, hrevs⟩ := generateRevisions_spec htracked codec.revisions
  obtain ⟨scope2, htracked2, hext2, hplatforms⟩ :=
    generateFiles_spec htracked1 .platforms dir codec.platforms
  obtain ⟨scope3, htracked3, hext3, hlayouts⟩ :=
    generateFiles_spec htracked2 .layouts dir codec.layouts
  have hslots3 := hslots.mono (hext.trans (hext1.trans (hext2.trans hext3)))
  obtain ⟨scope4, htracked4, hext4, hpatches⟩ :=
    generatePatches_spec htracked3 hslots3 codec.patches hcodec.patches
  have hext' := hext1.trans (hext2.trans (hext3.trans hext4))
  have hone : [(dir, some codec)].filterMap (codecOf tree kexts vendor)
      = [codec.entry tree kexts dir] := List.filterMap_cons_some (if_pos hvendor)
  have hline := denotesAll_codec dir hcodec.name (hrevs.mono (hext2.trans (hext3.trans hext4)))
    (hplatforms.mono (hext3.trans hext4)) (hlayouts.mono hext4) hpatches
  rw [← hone] at hline
  have htable := (hbody.mono hext').append hline
  rw [← List.filterMap_append] at htable
  simp only [codecStep]
  rw [if_pos hvendor]
  refine ⟨scope4, _, htracked4, hext.trans hext', ?_, htable, ?_⟩
  · show s.codecModSection ++ _ = _
    rw [htext, String.append_assoc]
    rfl
  · show s.codecs + 1 = _
    rw [hcount, List.filterMap_append, hone, List.length_append, List.length_singleton]

theorem CodecsDone.step {vendor : String} {done : List DirectoryEntry} {s : CodecText}
    (h : CodecsDone tree others kexts vendor scope done s)
    (hslots : KextSlots kexts kextIndexes scope) {entry : DirectoryEntry}
    (hentry : ∀ codec ∈ entry.2, codec.vendor = some vendor → codec.Valid kexts) :
    CodecsDone tree others kexts vendor scope (done ++ [entry])
      (codecStep tree kextIndexes vendor s entry) := by
  obtain ⟨dir, dict⟩ := entry
  cases dict with
  | none => exact h.skip rfl
  | some codec =>
      by_cases hvendor : codec.vendor = some vendor
      · exact h.add hslots hvendor (hentry codec rfl hvendor)
      · simp only [codecStep]
        rw [if_neg hvendor]
        exact h.skip (if_neg hvendor)

theorem reads_sectionComment {vendor : String} (hvendor : IsNamePart vendor) :
    Reads ("\n// " ++ vendor ++ " CodecMod section\n\n") [] := by
  refine reads_comment ?_ (by decide) (by decide)
  intro ch hch heq
  have hword := hvendor ch hch
  rw [heq] at hword
  exact absurd hword (by decide)

/-- **`generateCodecs`** defines the table of the codecs of a vendor. -/
theorem generateCodecs_spec (h : Tracked tree others c scope)
    (hslots : KextSlots kexts kextIndexes scope) {vendor : String} (hvendor : IsNamePart vendor)
    (hfresh : "codecMod" ++ vendor ∉ others)
    (hvalid : ∀ entry ∈ tree.contentsOfDirectory vendor, ∀ codec ∈ entry.2,
      codec.vendor = some vendor → codec.Valid kexts) :
    ∃ scope', Tracked tree (("codecMod" ++ vendor) :: others)
        (generateCodecs tree kextIndexes vendor c).2 scope' ∧ Extends scope scope' ∧
      DenotesArray scope' Value.asCodecs
        (fields ["codecMod" ++ vendor, decimal (generateCodecs tree kextIndexes vendor c).1])
        (some ((tree.contentsOfDirectory vendor).filterMap (codecOf tree kexts vendor))) := by
  have hcomment := reads_sectionComment hvendor
  have hstart : CodecsDone tree others kexts vendor scope []
      { codecModSection := "static CodecModInfo " ++ ("codecMod" ++ vendor) ++ "[] \x7b\n",
        c := c.appendFile ("\n// " ++ vendor ++ " CodecMod section\n\n") } :=
    ⟨scope, "", (h.nothing hcomment).appendFile _, Extends.refl scope,
      by rw [String.append_empty], denotesAll_nil, rfl⟩
  have hdone := foldl_invariant (f := codecStep tree kextIndexes vendor)
    (tree.contentsOfDirectory vendor) hstart fun done entry rest _ hsplit hdone =>
      hdone.step hslots (hvalid entry (hsplit ▸ List.mem_append_cons_self))
  generalize hs : (tree.contentsOfDirectory vendor).foldl (codecStep tree kextIndexes vendor)
    { codecModSection := "static CodecModInfo " ++ ("codecMod" ++ vendor) ++ "[] \x7b\n",
      c := c.appendFile ("\n// " ++ vendor ++ " CodecMod section\n\n") } = s at hdone
  obtain ⟨scope', body, htracked, hext, htext, hbody, hcount⟩ := hdone
  have hapart : ∀ (t : Stem) (i : ℕ), "codecMod" ++ vendor ≠ numbered t.text i :=
    Stem.ne_of_apart (fun t => by cases t <;> decide) vendor
  have hfree := htracked.fresh_other hfresh hapart
  have hword : IsWord ("codecMod" ++ vendor) := IsWord.append (by decide) hvendor
  have hnull : "codecMod" ++ vendor ≠ "nullptr" :=
    ((show Apart "nullptr" "codecMod" by decide).ne vendor).symm
  have htable : DenotesTable scope' .codecs body
      (.codecs ((tree.contentsOfDirectory vendor).filterMap (codecOf tree kexts vendor))) :=
    hbody.table fun _ => rfl
  have hdef : Defines scope' (s.codecModSection ++ "\x7d;\n")
      (("codecMod" ++ vendor,
        .codecs ((tree.contentsOfDirectory vendor).filterMap (codecOf tree kexts vendor)))
        :: scope') := by
    have hfront : Reads "static CodecModInfo " Kind.codecs.front := by decide
    have hbrackets : Reads "[] \x7b\n" (Kind.codecs.back ++ [.punct '{']) := by decide
    rw [htext]
    exact defines_table htable hfree (hfront.append_spells hword.spells) hbrackets
      ⟨'[', [']', ' ', '{', '\n'], rfl, rfl⟩ (by decide) ⟨'}', [';', '\n'], rfl, rfl⟩
  have hresult : generateCodecs tree kextIndexes vendor c
      = (s.codecs, s.c.appendFile (s.codecModSection ++ "\x7d;\n")) := by
    simp only [generateCodecs]
    rw [hs]
  rw [hresult, hcount]
  refine ⟨_, (htracked.named hdef hfree hapart).appendFile _, hext.trans (extends_cons hfree _), ?_⟩
  exact denotesArray_table hword hnull List.lookup_cons_self rfl

/-! ### Vendors -/

/-- A vendor whose name can be part of an identifier. -/
theorem denotesAll_vendor {vendor : String × ℕ} (hvendor : IsNamePart vendor.1) {codecs : String}
    (hcodecs : DenotesArray scope Value.asCodecs codecs
      (some ((tree.contentsOfDirectory vendor.1).filterMap (codecOf tree kexts vendor.1)))) :
    DenotesAll scope readVendor ("\t\x7b " ++ fields [quoted vendor.1,
      hexNumeral (unsignedShortValue vendor.2), codecs] ++ " \x7d,\n")
      [vendorEntry tree kexts vendor] := by
  obtain ⟨name, htext1, hscope1, hread1⟩ := denotes_quoted scope hvendor.isPlain
  obtain ⟨id, htext2, hscope2, hread2⟩ := denotes_id16 scope vendor.2
  obtain ⟨pointer, count, htext3, hscope3, -, hread3⟩ := hcodecs
  have hbody := textItems_fields (List.cons_ne_nil _ _)
    (.cons htext1 (.cons htext2 (.cons htext3 .nil)))
  refine denotesAll_entry hbody endsEntry_line (hscope1.append (hscope2.append hscope3))
    fun scope' hext => ?_
  have h1 := hread1 scope' hext
  have h2 := hread2 scope' hext
  have h3 := hread3 scope' hext
  show readVendor scope' (.braces [name, id, pointer, count]) = _
  simp only [readVendor, h1, h2, h3, Option.bind_eq_bind, Option.bind_some]
  rfl

/-- The names of the codec tables of the vendors, the latest one first. -/
def codecNames (vendors : List (String × ℕ)) : List String :=
  (vendors.map fun vendor => "codecMod" ++ vendor.1).reverse

/-- What the vendor loop has collected after the entries `done`. -/
def VendorsDone (tree : ResourceTree) (others : List String) (kexts : List (String × KextDict))
    (scope : Scope String Value) (done : List (String × ℕ)) (s : String × Converter) : Prop :=
  ∃ scope' body, Tracked tree (codecNames done ++ others) s.2 scope' ∧ Extends scope scope' ∧
    s.1 = "\n// Vendor section\n\nVendorModInfo ADDPR(" ++ "vendorMod" ++ ")[] \x7b\n" ++ body ∧
    DenotesAll scope' readVendor body (done.map (vendorEntry tree kexts))

/-- A vendor whose codecs can be written. -/
@[mk_iff]
structure VendorValid (tree : ResourceTree) (kexts : List (String × KextDict)) (vendor : String) :
    Prop where
  name : IsNamePart vendor
  codecs : ∀ entry ∈ tree.contentsOfDirectory vendor, ∀ codec ∈ entry.2,
    codec.vendor = some vendor → codec.Valid kexts

instance (vendor : String) : Decidable (VendorValid tree kexts vendor) :=
  decidable_of_iff _ (vendorValid_iff tree kexts vendor).symm

theorem codecName_not_mem {done : List (String × ℕ)} {vendor : String}
    (hnew : vendor ∉ done.map Prod.fst) (hothers : "codecMod" ++ vendor ∉ others) :
    "codecMod" ++ vendor ∉ codecNames done ++ others := by
  intro hmem
  rcases List.mem_append.mp hmem with hmem | hmem
  · obtain ⟨other, hother, heq⟩ := List.mem_map.mp (List.mem_reverse.mp hmem)
    rw [← append_right_inj heq] at hnew
    exact hnew (List.mem_map_of_mem hother)
  · exact hothers hmem

theorem not_mem_codecNames {name : String} (hapart : Apart name "codecMod") (hname : name ∉ others)
    (vendors : List (String × ℕ)) : name ∉ codecNames vendors ++ others := by
  intro hmem
  rcases List.mem_append.mp hmem with hmem | hmem
  · obtain ⟨vendor, -, heq⟩ := List.mem_map.mp (List.mem_reverse.mp hmem)
    exact hapart.ne vendor.1 heq.symm
  · exact hname hmem

theorem VendorsDone.step {done : List (String × ℕ)} {s : String × Converter}
    (h : VendorsDone tree others kexts scope done s) (hslots : KextSlots kexts kextIndexes scope)
    {vendor : String × ℕ} (hvendor : VendorValid tree kexts vendor.1)
    (hnew : vendor.1 ∉ done.map Prod.fst) (hothers : "codecMod" ++ vendor.1 ∉ others) :
    VendorsDone tree others kexts scope (done ++ [vendor])
      (vendorStep tree kextIndexes s vendor) := by
  obtain ⟨scope', body, htracked, hext, htext, hbody⟩ := h
  obtain ⟨scope'', htracked', hext', hcodecs⟩ := generateCodecs_spec htracked (hslots.mono hext)
    hvendor.name (codecName_not_mem hnew hothers) hvendor.codecs
  have hentry : DenotesAll scope'' readVendor _ ([vendor].map (vendorEntry tree kexts)) :=
    denotesAll_vendor hvendor.name hcodecs
  have htable := (hbody.mono hext').append hentry
  rw [← List.map_append] at htable
  refine ⟨scope'', _, ?_, hext.trans hext', ?_, htable⟩
  · have hnames : codecNames (done ++ [vendor]) = ("codecMod" ++ vendor.1) :: codecNames done := by
      rw [codecNames, List.map_append, List.reverse_append]
      rfl
    rw [hnames]
    exact htracked'
  · show s.1 ++ _ = _
    rw [htext, String.append_assoc]

/-- **`generateVendors`** defines `vendorMod` with an entry for every vendor. -/
theorem generateVendors_spec (h : Tracked tree others c scope)
    (hslots : KextSlots kexts kextIndexes scope) {vendors : List (String × ℕ)}
    (hkeys : (vendors.map Prod.fst).Nodup)
    (hvalid : ∀ vendor ∈ vendors, VendorValid tree kexts vendor.1)
    (hcodecMod : ∀ vendor, "codecMod" ++ vendor ∉ others) (hmod : "vendorMod" ∉ others)
    (hsize : "vendorModSize" ∉ others) :
    ∃ scope', Tracked tree ("vendorModSize" :: "vendorMod" :: (codecNames vendors ++ others))
        (generateVendors tree vendors kextIndexes c) scope' ∧ Extends scope scope' ∧
      scope'.lookup "vendorMod" = some (.vendors (vendors.map (vendorEntry tree kexts))) ∧
      scope'.lookup "vendorModSize" = some (.size vendors.length) := by
  have hfront : "\n// Vendor section\n\n" ++ "VendorModInfo ADDPR(vendorMod)[] \x7b\n"
      = "\n// Vendor section\n\nVendorModInfo ADDPR(" ++ "vendorMod" ++ ")[] \x7b\n" ++ "" := by
    decide
  have hstart : VendorsDone tree others kexts scope []
      ("\n// Vendor section\n\n" ++ "VendorModInfo ADDPR(vendorMod)[] \x7b\n", c) :=
    ⟨scope, "", h, Extends.refl scope, hfront, denotesAll_nil⟩
  have hdone := foldl_invariant (f := vendorStep tree kextIndexes) vendors hstart
    fun done vendor rest _ hsplit hdone => by
      have hmem : vendor ∈ vendors := hsplit ▸ List.mem_append_cons_self
      have hnew : vendor.1 ∉ done.map Prod.fst := by
        rw [hsplit, List.map_append, List.nodup_append] at hkeys
        exact fun hold => hkeys.2.2 _ hold _ List.mem_cons_self rfl
      exact hdone.step hslots (hvalid vendor hmem) hnew (hcodecMod vendor.1)
  generalize hs : vendors.foldl (vendorStep tree kextIndexes)
    ("\n// Vendor section\n\n" ++ "VendorModInfo ADDPR(vendorMod)[] \x7b\n", c) = s at hdone
  obtain ⟨scope', body, htracked, hext, htext, hbody⟩ := hdone
  have htable : DenotesTable scope' .vendors body
      (.vendors (vendors.map (vendorEntry tree kexts))) :=
    hbody.table fun _ => rfl
  have hmod' := not_mem_codecNames (by decide) hmod vendors
  have hsize' : "vendorModSize" ∉ "vendorMod" :: (codecNames vendors ++ others) :=
    List.not_mem_cons_of_ne_of_not_mem (by decide) (not_mem_codecNames (by decide) hsize vendors)
  obtain ⟨scope'', htracks', hext', hlookup, hlength⟩ := htracked.exported vendors.length htable
    (show Reads "\n// Vendor section\n\nVendorModInfo ADDPR(" _ by decide) rfl (by decide)
    (by decide) hmod' hsize' (fun t => by cases t <;> decide) (fun t => by cases t <;> decide)
  refine ⟨scope'', ?_, hext.trans hext', hlookup, hlength⟩
  rw [← htext] at htracks'
  simp only [generateVendors]
  rw [hs]
  exact htracks'.appendFile _

/-! ### Controllers -/

/-- The entry of one controller. -/
theorem denotesAll_controller {vendors : List (String × ℕ)} {ctrl : ControllerDict}
    (hname : IsPlain ctrl.name) {revs patches : String}
    (hrevs : DenotesArray scope Value.asNumbers revs ctrl.revisions)
    (hpatches : DenotesArray scope Value.asPatches patches
      (ctrl.patches.map fun ps => ps.map (PatchDict.entry kexts))) :
    DenotesAll scope readController ("\t\x7b " ++ fields [quoted ctrl.name,
      hexNumeral (unsignedShortValue (vendorNumber vendors ctrl.vendor)),
      hexNumeral (unsignedShortValue ctrl.device), revs, platformText ctrl.platform,
      modelText ctrl.model, patches] ++ " \x7d,\n") [ctrl.entry vendors kexts] := by
  obtain ⟨name, htext1, hscope1, hread1⟩ := denotes_quoted scope hname
  obtain ⟨vendor, htext2, hscope2, hread2⟩ := denotes_id32 scope (vendorNumber vendors ctrl.vendor)
  obtain ⟨device, htext3, hscope3, hread3⟩ := denotes_id32 scope ctrl.device
  obtain ⟨p4, c4, htext4, hscope4, -, hread4⟩ := hrevs
  obtain ⟨platform, htext5, hscope5, hread5⟩ := denotes_platform scope ctrl.platform
  obtain ⟨model, htext6, hscope6, hread6⟩ := denotes_model scope ctrl.model
  obtain ⟨p7, c7, htext7, hscope7, -, hread7⟩ := hpatches
  have hbody := textItems_fields (List.cons_ne_nil _ _) (.cons htext1 (.cons htext2
    (.cons htext3 (.cons htext4 (.cons htext5 (.cons htext6 (.cons htext7 .nil)))))))
  refine denotesAll_entry hbody endsEntry_line (hscope1.append (hscope2.append (hscope3.append
    (hscope4.append (hscope5.append (hscope6.append hscope7)))))) fun scope' hext => ?_
  have h1 := hread1 scope' hext
  have h2 := hread2 scope' hext
  have h3 := hread3 scope' hext
  have h4 := hread4 scope' hext
  have h5 := hread5 scope' hext
  have h6 := hread6 scope' hext
  have h7 := hread7 scope' hext
  show readController scope' (.braces [name, vendor, device, p4, c4, platform, model, p7, c7]) = _
  simp only [readController, h1, h2, h3, h4, h5, h6, h7, Option.bind_eq_bind, Option.bind_some,
    getD_map_nil]
  rfl

/-- What the controller loop has collected after the entries `done`. -/
def ControllersDone (tree : ResourceTree) (others : List String) (vendors : List (String × ℕ))
    (kexts : List (String × KextDict)) (scope : Scope String Value) (done : List ControllerDict)
    (s : String × Converter) : Prop :=
  ∃ scope' body, Tracked tree others s.2 scope' ∧ Extends scope scope' ∧
    s.1 = "ControllerModInfo ADDPR(" ++ "controllerMod" ++ ")[] \x7b\n" ++ body ∧
    DenotesAll scope' readController body (done.map (ControllerDict.entry vendors kexts))

theorem ControllersDone.step {vendors : List (String × ℕ)} {done : List ControllerDict}
    {s : String × Converter} (h : ControllersDone tree others vendors kexts scope done s)
    (hslots : KextSlots kexts kextIndexes scope) {ctrl : ControllerDict}
    (hctrl : ctrl.Valid kexts) :
    ControllersDone tree others vendors kexts scope (done ++ [ctrl])
      (controllerStep vendors kextIndexes s ctrl) := by
  obtain ⟨scope0, body, htracked, hext, htext, hbody⟩ := h
  obtain ⟨scope1, htracked1, hext1, hrevs⟩ := generateRevisions_spec htracked ctrl.revisions
  obtain ⟨scope2, htracked2, hext2, hpatches⟩ :=
    generatePatches_spec htracked1 (hslots.mono (hext.trans hext1)) ctrl.patches hctrl.patches
  have hentry : DenotesAll scope2 readController _
      ([ctrl].map (ControllerDict.entry vendors kexts)) :=
    denotesAll_controller hctrl.name (hrevs.mono hext2) hpatches
  have htable := (hbody.mono (hext1.trans hext2)).append hentry
  rw [← List.map_append] at htable
  refine ⟨scope2, _, htracked2, hext.trans (hext1.trans hext2), ?_, htable⟩
  show s.1 ++ _ = _
  rw [htext, String.append_assoc]

/-- **`generateControllers`** defines `controllerMod` with an entry for every controller. -/
theorem generateControllers_spec (h : Tracked tree others c scope)
    (hslots : KextSlots kexts kextIndexes scope) (vendors : List (String × ℕ))
    {ctrls : List ControllerDict} (hvalid : ∀ ctrl ∈ ctrls, ctrl.Valid kexts)
    (hmod : "controllerMod" ∉ others) (hsize : "controllerModSize" ∉ others) :
    ∃ scope', Tracked tree ("controllerModSize" :: "controllerMod" :: others)
        (generateControllers ctrls vendors kextIndexes c) scope' ∧ Extends scope scope' ∧
      scope'.lookup "controllerMod"
        = some (.controllers (ctrls.map (ControllerDict.entry vendors kexts))) ∧
      scope'.lookup "controllerModSize" = some (.size ctrls.length) := by
  have hcomment : Reads "\n// ControllerMod section\n\n" [] := by decide
  have hfront : "ControllerModInfo ADDPR(controllerMod)[] \x7b\n"
      = "ControllerModInfo ADDPR(" ++ "controllerMod" ++ ")[] \x7b\n" ++ "" := by decide
  have hstart : ControllersDone tree others vendors kexts scope []
      ("ControllerModInfo ADDPR(controllerMod)[] \x7b\n",
        c.appendFile "\n// ControllerMod section\n\n") :=
    ⟨scope, "", (h.nothing hcomment).appendFile _, Extends.refl scope, hfront, denotesAll_nil⟩
  have hdone := foldl_invariant (f := controllerStep vendors kextIndexes) ctrls hstart
    fun done ctrl rest _ hsplit hdone =>
      hdone.step hslots (hvalid ctrl (hsplit ▸ List.mem_append_cons_self))
  generalize hs : ctrls.foldl (controllerStep vendors kextIndexes)
    ("ControllerModInfo ADDPR(controllerMod)[] \x7b\n",
      c.appendFile "\n// ControllerMod section\n\n") = s at hdone
  obtain ⟨scope', body, htracked, hext, htext, hbody⟩ := hdone
  have htable : DenotesTable scope' .controllers body
      (.controllers (ctrls.map (ControllerDict.entry vendors kexts))) :=
    hbody.table fun _ => rfl
  have hsize' : "controllerModSize" ∉ "controllerMod" :: others :=
    List.not_mem_cons_of_ne_of_not_mem (by decide) hsize
  obtain ⟨scope'', htracks', hext', hlookup, hlength⟩ := htracked.exported ctrls.length htable
    (show Reads "ControllerModInfo ADDPR(" _ by decide) rfl (by decide) (by decide) hmod hsize'
    (fun t => by cases t <;> decide) (fun t => by cases t <;> decide)
  refine ⟨scope'', ?_, hext.trans hext', hlookup, hlength⟩
  rw [← htext] at htracks'
  simp only [generateControllers]
  rw [hs]
  exact htracks'.appendFile _

end AppleALC.ResourceConverter
