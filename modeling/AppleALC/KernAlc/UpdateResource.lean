import AppleALC.KernAlc.State

/-!
# Resource requests

AppleHDA asks for a platform or a layout through a callback; `updateResource` puts the file of the
detected codec in the place of what the driver loaded.

* `updateResource` — the request;
* `RepliesFrom` / `updateFromFiles_spec` — what the files of one kind reply: the first one for the
  layout that admits the running kernel, or nothing.
-/

namespace AppleALC

inductive Resource where
  | platform
  | layout
  deriving DecidableEq, Repr

/-- The outputs of a resource request.  A null `resourceData` is `none`. -/
structure ResourceReply where
  result : UInt32
  resourceData : Option (List UInt8)
  resourceDataLength : UInt32
  deriving DecidableEq, Repr

def kOSReturnSuccess : UInt32 := 0

/-- The files of one kind, null when the codec has none. -/
def Resource.files (type : Resource) (info : CodecModInfo) : Option (List File) :=
  match type with
  | .platform => info.platforms
  | .layout => info.layouts

def File.isFor (lilu : Lilu) (layout : UInt32) (fi : File) : Bool :=
  layout == fi.layout && lilu.compatibleKernel fi.minKernel fi.maxKernel

def ResourceReply.ofFile (fi : File) : ResourceReply where
  result := kOSReturnSuccess
  resourceData := fi.data
  resourceDataLength := fi.dataLength

/-- The file loop: it stops at the first suitable file. -/
def updateFromFiles (lilu : Lilu) (layout : UInt32) : List File → ResourceReply → ResourceReply
  | [], reply => reply
  | fi :: files, reply =>
      if fi.isFor lilu layout then .ofFile fi else updateFromFiles lilu layout files reply

def updateFromCodec (lilu : Lilu) (controllers : List ControllerInfo) (type : Resource)
    (ci : CodecInfo) (reply : ResourceReply) : ResourceReply :=
  match ci.info.bind type.files, controllers[ci.controller]? with
  | some files, some c => updateFromFiles lilu c.layout files reply
  | _, _ => reply

/-- `updateResource`: a later codec overrides an earlier one. -/
def updateResource (lilu : Lilu) (alc : AlcEnabler) (type : Resource) (reply : ResourceReply) :
    ResourceReply :=
  alc.codecs.foldl (fun reply ci => updateFromCodec lilu alc.controllers type ci reply) reply

/-! ### The selected file -/

/-- What a request does with the files of one kind: nothing when none is for this layout and admits
the running kernel, else it hands out the first one that is. -/
def RepliesFrom (running layout : UInt32) (files : List File) (before after : ResourceReply) :
    Prop :=
  (after = before ∧
    ∀ fi ∈ files, ¬(fi.layout = layout ∧ Admits running fi.minKernel fi.maxKernel)) ∨
  ∃ pre fi post, files = pre ++ fi :: post ∧ fi.layout = layout ∧
    Admits running fi.minKernel fi.maxKernel ∧
    (∀ other ∈ pre, ¬(other.layout = layout ∧ Admits running other.minKernel other.maxKernel)) ∧
    after = .ofFile fi

theorem File.isFor_iff {lilu : Lilu} {running : UInt32} (hrange : lilu.ChecksRange running)
    (layout : UInt32) (fi : File) :
    fi.isFor lilu layout = true ↔
      fi.layout = layout ∧ Admits running fi.minKernel fi.maxKernel := by
  unfold File.isFor
  rw [Bool.and_eq_true, beq_iff_eq, hrange, eq_comm]

theorem updateFromFiles_spec {lilu : Lilu} {running : UInt32}
    (hrange : lilu.ChecksRange running) (layout : UInt32) (files : List File)
    (reply : ResourceReply) :
    RepliesFrom running layout files reply (updateFromFiles lilu layout files reply) := by
  induction files with
  | nil => exact Or.inl ⟨rfl, by simp⟩
  | cons fi files ih =>
      unfold updateFromFiles
      by_cases hfi : fi.isFor lilu layout = true
      · rw [if_pos hfi]
        obtain ⟨hlayout, hadmits⟩ := (File.isFor_iff hrange layout fi).mp hfi
        exact Or.inr ⟨[], fi, files, rfl, hlayout, hadmits, by simp, rfl⟩
      · rw [if_neg hfi]
        have hno := mt (File.isFor_iff hrange layout fi).mpr hfi
        rcases ih with ⟨hsame, hnone⟩ | ⟨pre, f, post, hsplit, hlayout, hadmits, hpre, hreply⟩
        · refine Or.inl ⟨hsame, ?_⟩
          intro f hf
          rcases List.mem_cons.mp hf with rfl | hf
          · exact hno
          · exact hnone f hf
        · refine Or.inr ⟨fi :: pre, f, post, by rw [hsplit]; rfl, hlayout, hadmits, ?_, hreply⟩
          intro f' hf'
          rcases List.mem_cons.mp hf' with rfl | hf'
          · exact hno
          · exact hpre f' hf'

end AppleALC
