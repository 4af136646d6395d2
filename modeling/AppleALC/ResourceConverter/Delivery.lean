import AppleALC.ResourceConverter.BuildCache
import AppleALC.ResourceConverter.ResourceData
import AppleALC.ResourceConverter.ZlibPl

/-!
# From the edited `.xml` to the driver

A layout is edited as an `.xml`, and AppleHDA gets bytes that it decompresses.  In between are
`zlib.pl`, `generate.sh` with everything it keeps from run to run, the converter, the compiler, and
`updateResource`.  After any edits and any sound builds, what the driver decompresses is the text of
the `.xml` as it is now, less its newlines and tabs.

* `UpToDate` / `run_upToDate` — after a build that does not fail, the output and every packed file
  are those of the files as they are;
* `DeliversText` — the driver decompresses the text of an `.xml`;
* `delivers_edited_text` — so it does, on any machine and after any calls.
-/

namespace AppleALC.ResourceConverter

open OutputMachine StreamCodec

/-! ### What a finished build leaves behind -/

/-- The output is what the converter makes of the files, and every `.xml` is packed as it is. -/
structure UpToDate (T : Tools) (s : BuildFiles) : Prop where
  kernResources : s.kernResources = resourceConverter (resourceTree T (s.plists T) s.zlib)
  zlib : ∀ path text, s.content (.xml path) = some text → s.zlib path = some (T.deflate text)

variable {T : Tools}

/-- Nothing is converted again, or everything is, or the run fails. -/
theorem buildResources_cases (T : Tools) (r : GenerateRun) (s : BuildFiles) :
    (buildResources T r s).2 = .failed ∨
      Trusts T r s ∧ buildResources T r s = (s, .trusted) ∨
      ∃ text sum, build T (s.plists T, s.zlib) = some text ∧
        buildResources T r s =
          ({ s with kernResources := some text, resourcesMd5 := some sum }, .rebuilt) := by
  unfold buildResources
  split
  · exact Or.inl rfl
  · next hcat =>
    simp only
    split
    · next htrusts => exact Or.inr (Or.inl ⟨⟨Bool.eq_false_of_not_eq_true hcat, htrusts⟩, rfl⟩)
    · split
      · exact Or.inl rfl
      · exact Or.inl rfl
      · next text _ htext => exact Or.inr (Or.inr ⟨text, _, htext, rfl⟩)

/-- **Step lemma.**  A sound run that does not fail leaves everything up to date. -/
theorem generate_upToDate (hT : T.Documented) {r : GenerateRun} {s : BuildFiles} (hr : r.Sound s)
    (hfinds : r.Finds T s) (hs : CacheInv T s) (hdone : (generate T r s).2 ≠ .failed) :
    UpToDate T (generate T r s).1 := by
  have hstamped := formatted_stamped hT hr hs.stamped
  have hpacked : ∀ path text, (formatted T r s).1.content (.xml path) = some text →
      (formatted T r s).1.zlib path = some (T.deflate text) := by
    intro path text htext
    exact (hstamped.zlib path _).mpr ⟨text, formatted_xmlStamped hr hfinds path text htext, rfl⟩
  unfold generate at hdone ⊢
  split
  · next h => rw [if_pos h] at hdone; exact absurd rfl hdone
  · next hpack =>
    rw [if_neg hpack] at hdone
    split
    · next h => rw [if_pos h] at hdone; exact absurd rfl hdone
    · next hpast =>
      rw [if_neg hpast] at hdone
      rcases buildResources_cases T r (formatted T r s).1 with
        hfailed | ⟨htrusts, heq⟩ | ⟨text, sum, htext, heq⟩
      · exact absurd hfailed hdone
      · have hinv := hs.of_frame hstamped (formatted_frame r s)
        have hdescribes := describes_stamps hT hstamped
          (formatted_plistStamped hT hfinds (formatted_ok hr hpast)) (formatted_noOrphan hr)
          hfinds.stamps
        rw [heq]
        exact ⟨hinv.valid.hit (describes_determines hT) htrusts.2.2 htrusts.2.1 hdescribes, hpacked⟩
      · rw [heq]
        exact ⟨htext.symm, hpacked⟩

/-- **Run lemma.**  So does one at the end of any sound builds and any edits. -/
theorem run_upToDate (hT : T.Documented) {content : SourceFile → Option String}
    {actions : List Action} {r : GenerateRun}
    (hfinds : AllSteps (act T) (Action.Finds T) (actions ++ [.generate r]) (checkout content))
    (hsound : AllSteps (act T) Action.Sound (actions ++ [.generate r]) (checkout content))
    (hdone : (generate T r (run (act T) actions (checkout content))).2 ≠ .failed) :
    UpToDate T (generate T r (run (act T) actions (checkout content))).1 := by
  have hinv : CacheInv T (run (act T) actions (checkout content)) := by
    have hall : AllSteps (act T) (fun a s => a.Finds T s ∧ a.Sound s) actions (checkout content) :=
      fun pre a post hsplit => ⟨hfinds.of_append pre a post hsplit, hsound.of_append pre a post hsplit⟩
    refine run_invariant_of_steps ?_ hall (cacheInv_checkout T content)
    intro a s ha hs
    cases a with
    | edit file new => exact cacheInv_edit hs file new
    | generate r => exact (generate_sound hT ha.2 ha.1 hs).1
  exact generate_upToDate hT (hsound actions (.generate r) [] rfl)
    (hfinds actions (.generate r) [] rfl) hinv hdone

/-! ### What the driver decompresses -/

def bytesOf (text : String) : List UInt8 := text.toUTF8.data.toList

variable {σ τ : Type} {D : Deflater σ UInt8} {I : Inflater τ UInt8}

/-- The tools pack with `zlib.pl` over this compressor. -/
def Tools.PacksWith (T : Tools) (D : Deflater σ UInt8) : Prop :=
  ∀ text, T.deflate text = (ResourceConverter.deflate D (some (bytesOf text))).1

/-- A packed `.xml` unpacks to its text. -/
theorem inflate_packed (hcodec : Lossless D I) (hpacks : T.PacksWith D) (text : String) :
    inflate I (some (T.deflate text)) = (stripLayout (bytesOf text), true) := by
  obtain ⟨z, hz, hinflate⟩ := inflate_deflate_eq hcodec (bytesOf text)
  rw [hpacks, hz]
  exact hinflate

/-- A request that overwrites the outputs hands out the file of the entry it selects. -/
theorem updateResource_selects {tree : ResourceTree} {vendors : List (String × ℕ)}
    {kexts : List (String × KextDict)} {ctrls : List ControllerDict} {lilu : Lilu} {running : UInt32}
    (hrange : lilu.ChecksRange running) {alc : AlcEnabler}
    (h : PointsInto (tablesOf tree vendors kexts ctrls).vendorMod alc) {type : Resource}
    {reply : ResourceReply} (hne : updateResource lilu alc type reply ≠ reply) :
    ∃ d p, IsCodecDirectory tree vendors d ∧
      Selects tree kexts running alc.controllers alc.codecs type d p ∧
      updateResource lilu alc type reply = .ofFile (p.entry tree d.1) := by
  rcases selects_or_none h.directory with ⟨d, p, hd, hselects⟩ | hnone
  · exact ⟨d, p, hd, hselects, foldl_of_selects hrange hselects reply⟩
  · exact absurd (foldl_of_hasNoFile hrange hnone reply) hne

/-- **What the driver should get of an edited text**: a request that overwrites the outputs selects an
entry, and if the path of the entry leads to the packed file of an `.xml`, the request succeeds with
bytes that decompress to the text of the `.xml`. -/
def DeliversText (T : Tools) (I : Inflater τ UInt8) (s : BuildFiles) (tree : ResourceTree)
    (vendors : List (String × ℕ)) (kexts : List (String × KextDict)) (lilu : Lilu) (running : UInt32)
    (alc : AlcEnabler) (type : Resource) : Prop :=
  ∀ reply, updateResource lilu alc type reply ≠ reply →
    ∃ d p, IsCodecDirectory tree vendors d ∧
      Selects tree kexts running alc.controllers alc.codecs type d p ∧
      ∀ xml text, T.packedAt (filePath tree d.1 p) = some xml →
        s.content (.xml xml) = some text →
          ∃ z, updateResource lilu alc type reply = ⟨kOSReturnSuccess, some z, UInt32.ofNat z.length⟩ ∧
            inflate I (some z) = (stripLayout (bytesOf text), true)

theorem UpToDate.deliversText {s : BuildFiles} (hs : UpToDate T s) (hcodec : Lossless D I)
    (hpacks : T.PacksWith D) {vendors : List (String × ℕ)} {kexts : List (String × KextDict)}
    {ctrls : List ControllerDict} {lilu : Lilu} {running : UInt32}
    (hrange : lilu.ChecksRange running) {alc : AlcEnabler}
    (h : PointsInto
      (tablesOf (resourceTree T (s.plists T) s.zlib) vendors kexts ctrls).vendorMod alc)
    (type : Resource) :
    DeliversText T I s (resourceTree T (s.plists T) s.zlib) vendors kexts lilu running alc type := by
  intro reply hne
  obtain ⟨d, p, hd, hselects, hreply⟩ := updateResource_selects hrange h hne
  refine ⟨d, p, hd, hselects, ?_⟩
  intro xml text hxml htext
  have hdata : (resourceTree T (s.plists T) s.zlib).contentsAtPath
      (filePath (resourceTree T (s.plists T) s.zlib) d.1 p) = some (T.deflate text) := by
    simp only [resourceTree] at hxml ⊢
    simp only [hxml]
    exact hs.zlib xml text htext
  refine ⟨T.deflate text, ?_, inflate_packed hcodec hpacks text⟩
  rw [hreply, ResourceReply.ofFile, FileDict.entry, hdata, Option.getD_some]

/-! ### A sample project with a layout -/

namespace Sample

def layoutPlist : String := infoPlist ++ "<key>Files</key><string>layout18.xml.zlib</string>"

/-- Tools that pack with the sample codec. -/
def packingTools : Tools :=
  { tools with
    deflate := fun text => (deflate deflater (some (bytesOf text))).1
    read := fun text =>
      if text = layoutPlist then
        { codec := some { vendor := some "Realtek", codecName := "ALC292", codecID := 658
                          layouts := some [{ path := "layout18.xml.zlib", id := 18 }] } }
      else tools.read text
    packedAt := fun path =>
      if path = "Resources/ALC292/layout18.xml.zlib" then some "Resources/ALC292/layout18"
      else none }

def layoutText : String := "<dict/>\n"

def editedText : String := "<dict>\n\t<key>LayoutID</key>\n\t<integer>18</integer>\n</dict>\n"

def layoutContent (file : SourceFile) : Option String :=
  if file = .plist "Resources/ALC292/Info" then some layoutPlist
  else if file = .xml "Resources/ALC292/layout18" then some layoutText
  else content file

def withLayout : GenerateRun :=
  { withCodec with
    xmls := ["Resources/ALC292/layout18"]
    stamps := .xml "Resources/ALC292/layout18" :: withCodec.stamps }

theorem packingTools_documented : packingTools.Documented where
  md5_inj := tools_documented.md5_inj
  md5_line := tools_documented.md5_line
  read_format _ := rfl

theorem mem_layout_stamps (file : SourceFile) :
    file ∈ withLayout.stamps ↔ (layoutContent file).isSome := by
  have hmem := mem_stamps_iff file
  unfold layoutContent
  split_ifs <;> simp_all [withLayout, withCodec, paths]

theorem clean_layout : withLayout.Clean packingTools (checkout layoutContent) where
  files := mem_layout_stamps
  stamps := mem_layout_stamps
  noOrphan _ h := absurd h nofun
  keepsFormat _ _ _ := rfl
  packs _ := rfl
  formats _ := rfl
  cats := rfl
  converts := rfl

theorem stamped_layout : Stamped packingTools (checkout layoutContent) :=
  (cacheInv_checkout packingTools layoutContent).stamped

def builtLayout : BuildFiles := rebuilt packingTools withLayout (checkout layoutContent)

theorem act_layout :
    (act packingTools (.generate withLayout) (checkout layoutContent)).1 = builtLayout := by
  have houtput : builtLayout.kernResources.isSome := by decide +kernel
  rw [act, clean_layout.generate_eq packingTools_documented stamped_layout
    (Option.some_ne_none _).symm houtput, builtLayout]

def editedLayout : BuildFiles :=
  (act packingTools (.edit (.xml "Resources/ALC292/layout18") (some editedText)) builtLayout).1

theorem act_builtLayout :
    (act packingTools (.edit (.xml "Resources/ALC292/layout18") (some editedText)) builtLayout).1
      = editedLayout := by
  rw [editedLayout]

theorem clean_editedLayout : withLayout.Clean packingTools editedLayout :=
  clean_layout.clean_rebuilt.edit rfl rfl

theorem stamped_editedLayout : Stamped packingTools editedLayout :=
  let hs := clean_layout.stamped_rebuilt packingTools_documented stamped_layout
  ⟨hs.stamp, hs.zlib⟩

def rebuiltLayout : BuildFiles := rebuilt packingTools withLayout editedLayout

theorem editedLayout_xml : (checkout layoutContent).content (.xml "Resources/ALC292/layout18")
    ≠ editedLayout.content (.xml "Resources/ALC292/layout18") := by
  have hedited : editedLayout.content = Function.update layoutContent _ (some editedText) := rfl
  rw [hedited, Function.update_self]
  decide

theorem generate_editedLayout :
    generate packingTools withLayout editedLayout = (rebuiltLayout, .rebuilt) := by
  have hmd5 := clean_layout.resourcesMd5_ne packingTools_documented clean_editedLayout _
    editedLayout_xml
  have houtput : rebuiltLayout.kernResources.isSome := by decide +kernel
  exact clean_editedLayout.generate_eq packingTools_documented stamped_editedLayout hmd5 houtput

def layoutTree : ResourceTree :=
  resourceTree packingTools (rebuiltLayout.plists packingTools) rebuiltLayout.zlib

theorem rebuiltLayout_kernResources :
    rebuiltLayout.kernResources = resourceConverter layoutTree := by
  rw [rebuiltLayout, rebuilt_kernResources, layoutTree, rebuiltLayout]

theorem writable_layout :
    layoutTree.vendors = some [("Realtek", 0x10EC)] ∧ layoutTree.kexts = some [] ∧
      layoutTree.ctrls = some [] ∧ Writable layoutTree [("Realtek", 0x10EC)] [] [] := by
  decide +kernel

end Sample

/-! ### The whole way -/

/-- **From the edited `.xml` to the driver.**  From a fresh checkout, through any edits and any builds
that are sound, up to a build that does not fail: the output compiles to tables, and an extension with
these tables, on any machine and after any calls, hands the driver the texts of the `.xml` files as
they are now. -/
theorem delivers_edited_text (hT : T.Documented) (hpacks : T.PacksWith D) (hcodec : Lossless D I)
    (content : SourceFile → Option String) (actions : List Action) (r : GenerateRun)
    (hfinds : AllSteps (act T) (Action.Finds T) (actions ++ [.generate r]) (checkout content))
    (hsound : AllSteps (act T) Action.Sound (actions ++ [.generate r]) (checkout content))
    (hdone : (generate T r (run (act T) actions (checkout content))).2 ≠ .failed)
    {tree : ResourceTree} {vendors : List (String × ℕ)} {kexts : List (String × KextDict)}
    {ctrls : List ControllerDict} {s : BuildFiles}
    (hs : s = (generate T r (run (act T) actions (checkout content))).1)
    (htree : tree = resourceTree T (s.plists T) s.zlib) (hvendors : tree.vendors = some vendors)
    (hkexts : tree.kexts = some kexts) (hctrls : tree.ctrls = some ctrls)
    (hwritable : Writable tree vendors kexts ctrls) :
    ∃ output tables, s.kernResources = some output ∧ readBack output = some tables ∧
      ∀ (cfg : Config) (running : UInt32), cfg.res.vendorMod = tables.vendorMod →
        cfg.lilu.ChecksRange running → ∀ boot table loads type,
          DeliversText T I s tree vendors kexts cfg.lilu running (stateAfter cfg boot table loads)
            type := by
  have hdate := run_upToDate hT hfinds hsound hdone
  rw [← hs] at hdate
  obtain ⟨output, -, houtput, -, -, hread⟩ :=
    readBack_resourceConverter hvendors hkexts hctrls hwritable
  refine ⟨output, _, ?_, hread, ?_⟩
  · rw [hdate.kernResources, ← htree, houtput]
  · intro cfg running hmod hrange boot table loads type
    have hinto := stateAfter_pointsInto cfg boot table loads
    rw [hmod] at hinto
    subst htree
    exact hdate.deliversText hcodec hpacks hrange hinto type

/-- The sample layout is built, edited and built again.  A machine with the tables of the second build
then decompresses the edited text. -/
theorem delivers_edited_text_sample :
    ∃ output tables z, Sample.rebuiltLayout.kernResources = some output ∧
      readBack output = some tables ∧
      (∀ loads type,
        DeliversText Sample.packingTools Sample.inflater Sample.rebuiltLayout Sample.layoutTree
          [("Realtek", 0x10EC)] [] Sample.config.lilu 19 (Sample.machine tables loads) type) ∧
      updateResource Sample.config.lilu
          (Sample.machine tables [Sample.load [] 12, Sample.load [] 11]) .layout ⟨1, some [], 0⟩
        = ⟨kOSReturnSuccess, some z, UInt32.ofNat z.length⟩ ∧
      inflate Sample.inflater (some z)
        = (bytesOf "<dict><key>LayoutID</key><integer>18</integer></dict>", true) := by
  have hT := Sample.packingTools_documented
  obtain ⟨hvendors, hkexts, hctrls, hwritable⟩ := Sample.writable_layout
  have hrun : run (act Sample.packingTools) [.generate Sample.withLayout,
      .edit (.xml "Resources/ALC292/layout18") (some Sample.editedText)]
      (checkout Sample.layoutContent) = Sample.editedLayout := by
    rw [run_cons, Sample.act_layout, run_cons, Sample.act_builtLayout, run_nil]
  obtain ⟨output, tables, houtput, hread, hdelivers⟩ :=
    delivers_edited_text hT (fun _ => rfl) Sample.lossless Sample.layoutContent
      [.generate Sample.withLayout,
        .edit (.xml "Resources/ALC292/layout18") (some Sample.editedText)] Sample.withLayout
      (by
        refine .cons (Sample.clean_layout.finds hT Sample.stamped_layout) ?_
        rw [Sample.act_layout]
        refine .cons trivial ?_
        rw [Sample.act_builtLayout]
        exact .cons (Sample.clean_editedLayout.finds hT Sample.stamped_editedLayout)
          (allSteps_nil _))
      (by
        refine .cons Sample.clean_layout.sound ?_
        rw [Sample.act_layout]
        refine .cons trivial ?_
        rw [Sample.act_builtLayout]
        exact .cons Sample.clean_editedLayout.sound (allSteps_nil _))
      (by rw [hrun, Sample.generate_editedLayout]; decide) (by rw [hrun, Sample.generate_editedLayout])
      rfl hvendors hkexts hctrls hwritable
  -- the tables are those of the tree
  obtain ⟨_, _, htext, -, -, htables⟩ := readBack_resourceConverter hvendors hkexts hctrls hwritable
  have hsame : tables = tablesOf Sample.layoutTree [("Realtek", 0x10EC)] [] [] := by
    rw [← Sample.rebuiltLayout_kernResources, houtput, Option.some.injEq] at htext
    rw [← htext, hread] at htables
    exact Option.some.inj htables
  refine ⟨output, tables, Sample.packingTools.deflate Sample.editedText, houtput, hread,
    fun loads type => ?_, ?_, ?_⟩
  · exact hdelivers { Sample.config with
      res := { Sample.resources with vendorMod := tables.vendorMod } } 19 rfl
      (Lilu.documented_checksRange 19 4) _ _ loads type
  · rw [hsame]
    decide +kernel
  · rw [inflate_packed Sample.lossless (fun _ => rfl)]
    decide +kernel

end AppleALC.ResourceConverter
