import Mathlib.Data.List.Basic

/-!
# Stream codecs

A compressor and a decompressor that work on a stream: they are fed piece by piece, and each piece
yields some output and a status.  A codec is lossless when what comes out of the decompressor does
not depend on how either stream was cut into pieces.

A file is read in pieces of a fixed length; the last piece may be shorter.

* `Deflater` / `Inflater` — the two halves;
* `Lossless` — what is packed comes out again, however it was cut;
* `pieces` / `flatten_pieces` — a file in pieces;
* `lossless_buffering` — a codec of whole texts is one of streams.
-/

namespace StreamCodec

variable {σ τ β : Type*}

inductive Status where
  | ok
  | streamEnd
  | error
  deriving DecidableEq, Repr

/-- A compressor.  It may fail to start. -/
structure Deflater (σ β : Type*) where
  start : Option σ
  feed : σ → List β → σ × List β × Status
  flush : σ → List β × Status

structure Inflater (τ β : Type*) where
  start : Option τ
  feed : τ → List β → τ × List β × Status

/-- The output for these pieces and the end of the stream, if nothing fails. -/
def Deflater.outputFrom (D : Deflater σ β) : List (List β) → σ → Option (List β)
  | [], s => if (D.flush s).2 = .ok then some (D.flush s).1 else none
  | piece :: pieces, s =>
      if (D.feed s piece).2.2 = .ok then
        (D.outputFrom pieces (D.feed s piece).1).map ((D.feed s piece).2.1 ++ ·)
      else none

/-- The whole stream for these pieces. -/
def Deflater.output (D : Deflater σ β) (pieces : List (List β)) : Option (List β) :=
  D.start.bind (D.outputFrom pieces)

/-- The output for these pieces, if the stream ends with the last of them. -/
def Inflater.outputFrom (I : Inflater τ β) : List (List β) → τ → Option (List β)
  | [], _ => none
  | piece :: pieces, s =>
      match (I.feed s piece).2.2 with
      | .ok => (I.outputFrom pieces (I.feed s piece).1).map ((I.feed s piece).2.1 ++ ·)
      | .streamEnd => if pieces = [] then some (I.feed s piece).2.1 else none
      | .error => none

/-- What these pieces decompress to. -/
def Inflater.output (I : Inflater τ β) (pieces : List (List β)) : Option (List β) :=
  I.start.bind (I.outputFrom pieces)

/-- Compressing never fails, and what was compressed comes out again, however it is cut. -/
def Lossless (D : Deflater σ β) (I : Inflater τ β) : Prop :=
  ∀ pieces, ∃ z, D.output pieces = some z ∧
    ∀ cut : List (List β), cut.flatten = z → (∀ piece ∈ cut, piece ≠ []) →
      I.output cut = some pieces.flatten

/-! ### Reading a file in pieces -/

/-- The pieces of length `n` of a list, as long as `fuel` lasts. -/
def pieces (n : ℕ) : (fuel : ℕ) → List β → List (List β)
  | 0, _ => []
  | fuel + 1, xs => if xs = [] then [] else xs.take n :: pieces n fuel (xs.drop n)

variable {n : ℕ}

/-- All of the list is read. -/
theorem flatten_pieces (hn : 0 < n) (fuel : ℕ) (xs : List β) (h : xs.length ≤ fuel) :
    (pieces n fuel xs).flatten = xs := by
  induction fuel generalizing xs with
  | zero =>
      have hnil : xs = [] := List.eq_nil_of_length_eq_zero (by omega)
      rw [hnil]
      rfl
  | succ fuel ih =>
      rw [pieces]
      split
      · next hnil => rw [hnil]; rfl
      · next hne =>
        have hpos : 0 < xs.length := List.length_pos_iff.mpr hne
        rw [List.flatten_cons, ih _ (by rw [List.length_drop]; omega), List.take_append_drop]

/-- No piece is empty. -/
theorem pieces_ne_nil (hn : 0 < n) (fuel : ℕ) (xs : List β) :
    ∀ piece ∈ pieces n fuel xs, piece ≠ [] := by
  induction fuel generalizing xs with
  | zero => exact fun piece h => absurd h List.not_mem_nil
  | succ fuel ih =>
      rw [pieces]
      split
      · exact fun piece h => absurd h List.not_mem_nil
      · next hne =>
        intro piece h
        rcases List.mem_cons.mp h with rfl | h
        · rw [ne_eq, List.take_eq_nil_iff, not_or]
          exact ⟨by omega, hne⟩
        · exact ih _ piece h

/-- Filtering the pieces filters the list. -/
theorem flatten_map_filter (p : β → Bool) (cut : List (List β)) :
    (cut.map (List.filter p)).flatten = cut.flatten.filter p := by
  induction cut with
  | nil => rfl
  | cons piece cut ih => rw [List.map_cons, List.flatten_cons, List.flatten_cons, ih,
      List.filter_append]

/-! ### Buffering codecs

A compressor that keeps everything until the end, and a decompressor that keeps everything until it
makes sense.
-/

/-- The compressor that writes `encode` of all it was fed when it is flushed. -/
def Deflater.buffering (encode : List β → List β) : Deflater (List β) β where
  start := some []
  feed s piece := (s ++ piece, [], .ok)
  flush s := (encode s, .ok)

/-- The decompressor that ends as soon as `decode` accepts what it was fed. -/
def Inflater.buffering (decode : List β → Option (List β)) : Inflater (List β) β where
  start := some []
  feed s piece :=
    match decode (s ++ piece) with
    | some text => (s ++ piece, text, .streamEnd)
    | none => (s ++ piece, [], .ok)

section Buffering

variable {encode : List β → List β} {decode : List β → Option (List β)}

theorem outputFrom_deflater (pieces : List (List β)) (s : List β) :
    (Deflater.buffering encode).outputFrom pieces s = some (encode (s ++ pieces.flatten)) := by
  induction pieces generalizing s with
  | nil =>
      rw [List.flatten_nil, List.append_nil]
      exact if_pos rfl
  | cons piece pieces ih =>
      have hrest := ih (s ++ piece)
      rw [List.append_assoc, ← List.flatten_cons] at hrest
      show Option.map _ ((Deflater.buffering encode).outputFrom pieces (s ++ piece)) = _
      rw [hrest]
      rfl

/-- `decode` accepts the whole stream and none of its beginnings, so the stream ends with the last
piece. -/
theorem outputFrom_inflater (hends : ∀ s r t t', decode s = some t → decode (s ++ r) = some t' → r = [])
    {cut : List (List β)} (hcut : ∀ piece ∈ cut, piece ≠ []) {s text : List β}
    (htext : decode (s ++ cut.flatten) = some text) (hmore : cut ≠ []) :
    (Inflater.buffering decode).outputFrom cut s = some text := by
  induction cut generalizing s with
  | nil => exact absurd rfl hmore
  | cons piece cut ih =>
      rw [List.flatten_cons, ← List.append_assoc] at htext
      obtain ⟨-, hrest⟩ := List.forall_mem_cons.mp hcut
      rw [Inflater.outputFrom]
      cases hfed : decode (s ++ piece) with
      | some out =>
          -- what follows is empty, and no piece is
          have hnil := hends _ _ _ _ hfed htext
          have hlast : cut = [] := by
            cases cut with
            | nil => rfl
            | cons next cut =>
                rw [List.flatten_cons, List.append_eq_nil_iff] at hnil
                exact absurd hnil.1 (hrest next List.mem_cons_self)
          rw [hnil, List.append_nil, hfed, Option.some.injEq] at htext
          simp only [Inflater.buffering, hfed, hlast, if_true, htext]
      | none =>
          have hmore : cut ≠ [] := by
            rintro rfl
            rw [List.flatten_nil, List.append_nil, hfed] at htext
            exact absurd htext nofun
          have hout := ih hrest htext hmore
          simp only [Inflater.buffering, hfed] at hout ⊢
          rw [hout]
          rfl

/-- **A code gives a codec.**  If `decode` undoes `encode` and accepts no stream that goes on after
another, the buffering codec is lossless. -/
theorem lossless_buffering (hround : ∀ t, decode (encode t) = some t) (hempty : decode [] = none)
    (hends : ∀ s r t t', decode s = some t → decode (s ++ r) = some t' → r = []) :
    Lossless (Deflater.buffering encode) (Inflater.buffering decode) := by
  intro pieces
  refine ⟨_, outputFrom_deflater pieces [], ?_⟩
  intro cut hflat hcut
  have htext : decode ([] ++ cut.flatten) = some pieces.flatten := by
    rw [hflat]
    exact hround _
  refine outputFrom_inflater hends hcut htext ?_
  rintro rfl
  exact absurd (hempty.symm.trans htext) nofun

end Buffering

end StreamCodec
