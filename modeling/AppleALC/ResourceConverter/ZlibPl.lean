import AppleALC.Library.StreamCodec

/-!
# zlib.pl

The script that packs the resources, and unpacks them again.  It reads a file in pieces of 4096
bytes.  Packing drops the newlines and the tabs of every piece.

`Compress::Zlib` is a parameter: a compressor and a decompressor of streams.  A run of the script is
what it prints and whether it succeeds; what was printed before it dies stays in the packed file.

* `deflate` / `inflate` — the two runs of the script;
* `stripLayout` — what packing does to the text;
* `inflate_deflate_eq` — unpacking what was packed gives the stripped text.
-/

namespace AppleALC.ResourceConverter

open StreamCodec

/-- The bytes that the substitution keeps: no newline and no tab. -/
def isKept (b : UInt8) : Bool := b != 0x0A && b != 0x09

/-- `$data =~ s/[\n\t]*//g`. -/
def stripLayout (data : List UInt8) : List UInt8 := data.filter isKept

/-- `read(FILE, $data, 4096)` until the end of the file. -/
def readFile4096 (file : List UInt8) : List (List UInt8) := pieces 4096 file.length file

variable {σ τ : Type}

/-- The loop of `deflate` and the flush after it. -/
def deflateLoop (D : Deflater σ UInt8) : List (List UInt8) → σ → List UInt8 × Bool
  | [], x =>
      let (output, status) := D.flush x
      if status = .ok then (output, true) else ([], false)
  | data :: rest, x =>
      let (x, output, status) := D.feed x (stripLayout data)
      if status = .ok then
        let (printed, ok) := deflateLoop D rest x
        (output ++ printed, ok)
      else ([], false)

/-- `zlib.pl deflate`.  When the file cannot be opened, the script does nothing and succeeds. -/
def deflate (D : Deflater σ UInt8) (file : Option (List UInt8)) : List UInt8 × Bool :=
  match D.start, file with
  | none, _ => ([], false)
  | some _, none => ([], true)
  | some x, some content => deflateLoop D (readFile4096 content) x

/-- The loop of `inflate`, with the status of the piece before, if there was any. -/
def inflateLoop (I : Inflater τ UInt8) :
    List (List UInt8) → Option Status → τ → List UInt8 × Bool
  | [], status, _ => ([], status == some .streamEnd)
  | data :: rest, _, x =>
      let (x, output, status) := I.feed x data
      match status with
      | .ok =>
          let (printed, ok) := inflateLoop I rest (some .ok) x
          (output ++ printed, ok)
      | .streamEnd => (output, true)
      | .error => ([], false)

def inflate (I : Inflater τ UInt8) (file : Option (List UInt8)) : List UInt8 × Bool :=
  match I.start, file with
  | none, _ => ([], false)
  | some _, none => ([], true)
  | some x, some content => inflateLoop I (readFile4096 content) none x

/-! ### The round trip -/

section RoundTrip

variable {D : Deflater σ UInt8} {I : Inflater τ UInt8}

/-- If the stream comes through, the script prints it. -/
theorem deflateLoop_of_output {rest : List (List UInt8)} {x : σ} {z : List UInt8}
    (h : D.outputFrom (rest.map stripLayout) x = some z) : deflateLoop D rest x = (z, true) := by
  induction rest generalizing x z with
  | nil =>
      rw [List.map_nil, Deflater.outputFrom] at h
      split at h
      · next hok =>
        rw [deflateLoop, ← Option.some.inj h]
        exact if_pos hok
      · exact absurd h nofun
  | cons data rest ih =>
      rw [List.map_cons, Deflater.outputFrom] at h
      split at h
      · next hok =>
        obtain ⟨printed, hprinted, rfl⟩ := Option.map_eq_some_iff.mp h
        rw [deflateLoop]
        simp only [hok, ih hprinted, if_true]
      · exact absurd h nofun

/-- If the stream ends with the last piece, the script prints what it decompresses to. -/
theorem inflateLoop_of_output {rest : List (List UInt8)} {status : Option Status} {x : τ}
    {text : List UInt8} (h : I.outputFrom rest x = some text) :
    inflateLoop I rest status x = (text, true) := by
  induction rest generalizing x text status with
  | nil => cases h
  | cons data rest ih =>
      rw [Inflater.outputFrom] at h
      rw [inflateLoop]
      cases hstatus : (I.feed x data).2.2 with
      | ok =>
          simp only [hstatus] at h ⊢
          obtain ⟨printed, hprinted, rfl⟩ := Option.map_eq_some_iff.mp h
          rw [ih hprinted]
      | streamEnd =>
          simp only [hstatus] at h ⊢
          split at h
          · rw [Option.some.inj h]
          · cases h
      | error =>
          simp only [hstatus] at h
          cases h

theorem flatten_readFile4096 (file : List UInt8) : (readFile4096 file).flatten = file :=
  flatten_pieces (by omega) file.length file (Nat.le_refl _)

/-- What `deflate` feeds is the stripped file, wherever the pieces end. -/
theorem flatten_map_stripLayout (file : List UInt8) :
    ((readFile4096 file).map stripLayout).flatten = stripLayout file := by
  have hfilter := flatten_map_filter isKept (readFile4096 file)
  rw [flatten_readFile4096] at hfilter
  exact hfilter

/-- **Round trip.**  With a lossless codec, packing a file succeeds, and unpacking the packed file
succeeds and gives the file back without its newlines and tabs. -/
theorem inflate_deflate_eq (h : Lossless D I) (file : List UInt8) :
    ∃ z, deflate D (some file) = (z, true) ∧ inflate I (some z) = (stripLayout file, true) := by
  obtain ⟨z, hz, hinflate⟩ := h ((readFile4096 file).map stripLayout)
  refine ⟨z, ?_, ?_⟩
  · obtain ⟨x, hx, hout⟩ := Option.bind_eq_some_iff.mp hz
    simp only [deflate, hx]
    exact deflateLoop_of_output hout
  · have hout := hinflate (readFile4096 z) (flatten_readFile4096 z)
      (pieces_ne_nil (by omega) z.length z)
    rw [flatten_map_stripLayout] at hout
    obtain ⟨x, hx, hout⟩ := Option.bind_eq_some_iff.mp hout
    simp only [inflate, hx]
    exact inflateLoop_of_output hout

end RoundTrip

/-! ### A sample codec

Streams of the format of zlib, with a stored block for every byte: a header, the blocks, an empty
last block, and the Adler sum.
-/

namespace Sample

/-- The Adler sum, `a` and `b` in one number. -/
def adler (text : List UInt8) : ℕ :=
  let (a, b) := text.foldl (fun (a, b) x =>
    ((a + x.toNat) % 65521, (b + a + x.toNat) % 65521)) (1, 0)
  b * 65536 + a

/-- The blocks of a text and what comes after them. -/
def storedBlocks (tail : List UInt8) (text : List UInt8) : List UInt8 :=
  text.foldr (fun b rest => 0x00 :: 0x01 :: 0x00 :: 0xFE :: 0xFF :: b :: rest) tail

def encode (text : List UInt8) : List UInt8 :=
  let sum := adler text
  0x78 :: 0xDA :: storedBlocks
    [0x03, 0x00, UInt8.ofNat (sum / 16777216), UInt8.ofNat (sum / 65536), UInt8.ofNat (sum / 256),
      UInt8.ofNat sum] text

def decodeBlocks : List UInt8 → Option (List UInt8)
  | b0 :: _ :: _ :: _ :: _ :: b5 :: rest =>
      if b0 = 0x03 then (if rest = [] then some [] else none)
      else (decodeBlocks rest).map (b5 :: ·)
  | _ => none

def decode : List UInt8 → Option (List UInt8)
  | _ :: _ :: blocks => decodeBlocks blocks
  | _ => none

def deflater : Deflater (List UInt8) UInt8 := .buffering encode

def inflater : Inflater (List UInt8) UInt8 := .buffering decode

theorem decode_encode (text : List UInt8) : decode (encode text) = some text := by
  rw [encode, decode]
  generalize UInt8.ofNat (adler text / 16777216) = s0
  generalize UInt8.ofNat (adler text / 65536) = s1
  generalize UInt8.ofNat (adler text / 256) = s2
  generalize UInt8.ofNat (adler text) = s3
  induction text with
  | nil => rfl
  | cons b text ih =>
      rw [storedBlocks, List.foldr_cons, ← storedBlocks, decodeBlocks, if_neg (by decide), ih]
      rfl

/-- A stream that is complete does not go on. -/
theorem decodeBlocks_prefix (s r : List UInt8) {t t' : List UInt8} (h : decodeBlocks s = some t)
    (h' : decodeBlocks (s ++ r) = some t') : r = [] := by
  induction s using decodeBlocks.induct generalizing t t' with
  | case1 b1 b2 b3 b4 b5 =>
      simp only [List.cons_append, List.nil_append, decodeBlocks, if_true] at h'
      split at h'
      · next hnil => exact hnil
      · exact absurd h' nofun
  | case2 b1 b2 b3 b4 b5 rest hrest =>
      rw [decodeBlocks, if_pos rfl, if_neg hrest] at h
      exact absurd h nofun
  | case3 b0 b1 b2 b3 b4 b5 rest hmore ih =>
      simp only [List.cons_append, decodeBlocks, if_neg hmore] at h h'
      obtain ⟨u, hu, -⟩ := Option.map_eq_some_iff.mp h
      obtain ⟨u', hu', -⟩ := Option.map_eq_some_iff.mp h'
      exact ih hu hu'
  | case4 s hshort =>
      rw [decodeBlocks] at h
      · exact absurd h nofun
      · exact hshort

theorem lossless : Lossless deflater inflater := by
  refine lossless_buffering decode_encode rfl ?_
  intro s r t t' h h'
  match s, h with
  | _ :: _ :: blocks, h => exact decodeBlocks_prefix blocks r h h'

end Sample

end AppleALC.ResourceConverter
