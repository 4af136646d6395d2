import AppleALC.Library.Numeral
import AppleALC.Library.OutputMachine

/-!
# Scanning C source text

The scanner of a C-like language as a machine that is fed one character at a time and emits tokens:
words (identifiers and numerals), string literals and single punctuation characters.  Line comments
and `#include` lines contribute nothing; every other directive is kept, so that a reader stumbles
over it.  String literals know no escape sequences: a backslash in one is a stray character.

Texts are put together from pieces, and so are their tokens.  `Reads` is for a piece after which the
scanner is between tokens again; `Spells` also allows a piece that ends in a word, which must then be
followed by a character that ends the word.

* `Token` / `scanChar` — the tokens, and one step of the machine;
* `Reads` / `Spells` — what a piece contributes;
* `Reads.append` / `Spells.append` — and two pieces together;
* `IsWord.spells` / `IsPlain.reads` — names and numerals, and quoted text.
-/

namespace SourceText

open OutputMachine Numeral

inductive Token where
  | word (w : String)
  | str (s : String)
  | punct (c : Char)
  | directive (d : String)
  | stray (c : Char)
  deriving DecidableEq, Repr

/-- Where the scanner is. -/
inductive Scan where
  | code
  | word (seen : List Char)
  | str (seen : List Char)
  | slash
  | comment
  | directive (seen : List Char)
  deriving DecidableEq, Repr

def isWordChar (c : Char) : Bool := c.isAlphanum || c == '_'

/-- The characters that may stand for themselves in a string literal. -/
def isPlainChar (c : Char) : Bool := !(c == '"' || c == '\\' || c == '\n')

/-- The scanner between two tokens. -/
def scanCode (c : Char) : Scan × List Token :=
  if isWordChar c then (.word [c], [])
  else if c == '"' then (.str [], [])
  else if c == '/' then (.slash, [])
  else if c == '#' then (.directive [], [])
  else if c.isWhitespace then (.code, [])
  else (.code, [.punct c])

/-- The tokens of a directive line. -/
def directiveTokens (seen : List Char) : List Token :=
  if "include".toList.isPrefixOf seen then [] else [.directive (String.ofList seen)]

/-- One step of the scanner. -/
def scanChar (c : Char) : Scan → Scan × List Token
  | .code => scanCode c
  | .word seen =>
      if isWordChar c then (.word (seen ++ [c]), [])
      else ((scanCode c).1, .word (String.ofList seen) :: (scanCode c).2)
  | .str seen =>
      if isPlainChar c then (.str (seen ++ [c]), [])
      else if c == '"' then (.code, [.str (String.ofList seen)])
      else (.code, [.stray c])
  | .slash =>
      if c == '/' then (.comment, []) else ((scanCode c).1, .punct '/' :: (scanCode c).2)
  | .comment => if c == '\n' then (.code, []) else (.comment, [])
  | .directive seen =>
      if c == '\n' then (.code, directiveTokens seen) else (.directive (seen ++ [c]), [])

def scanState (text : String) (q : Scan) : Scan := run scanChar text.toList q

def scanTokens (text : String) (q : Scan) : List Token := outputs scanChar text.toList q

/-- A text of which the scanner makes these tokens, ending between two tokens. -/
def Reads (text : String) (tokens : List Token) : Prop :=
  scanState text .code = .code ∧ scanTokens text .code = tokens

instance (text : String) (tokens : List Token) : Decidable (Reads text tokens) :=
  inferInstanceAs (Decidable (_ ∧ _))

/-- A text of which the scanner makes these tokens if a character that ends words follows. -/
def Spells (text : String) (tokens : List Token) : Prop :=
  Reads text tokens ∨
    ∃ seen, scanState text .code = .word seen ∧
      scanTokens text .code ++ [.word (String.ofList seen)] = tokens

/-- The text starts with a character that ends words. -/
def StartsBreak (text : String) : Prop :=
  ∃ c cs, text.toList = c :: cs ∧ isWordChar c = false

/-- A text made of word characters only. -/
def IsNamePart (text : String) : Prop := ∀ c ∈ text.toList, isWordChar c = true

instance (text : String) : Decidable (IsNamePart text) := List.decidableBAll _ _

/-- A text made of word characters only, at least one. -/
def IsWord (text : String) : Prop := text.toList ≠ [] ∧ IsNamePart text

instance (text : String) : Decidable (IsWord text) := inferInstanceAs (Decidable (_ ∧ _))

/-- A text that stands for itself between double quotes. -/
def IsPlain (text : String) : Prop := ∀ c ∈ text.toList, isPlainChar c = true

instance (text : String) : Decidable (IsPlain text) := List.decidableBAll _ _

/-! ### Putting pieces together -/

theorem scanState_append (s t : String) (q : Scan) :
    scanState (s ++ t) q = scanState t (scanState s q) := by
  rw [scanState, String.toList_append, run_append]
  rfl

theorem scanTokens_append (s t : String) (q : Scan) :
    scanTokens (s ++ t) q = scanTokens s q ++ scanTokens t (scanState s q) := by
  rw [scanTokens, String.toList_append, outputs_append]
  rfl

theorem Reads.spells {s : String} {ts : List Token} (h : Reads s ts) : Spells s ts := Or.inl h

theorem Reads.empty : Reads "" [] := ⟨rfl, rfl⟩

theorem Reads.append {s t : String} {ts us : List Token} (hs : Reads s ts) (ht : Reads t us) :
    Reads (s ++ t) (ts ++ us) := by
  constructor
  · rw [scanState_append, hs.1, ht.1]
  · rw [scanTokens_append, hs.1, hs.2, ht.2]

theorem Reads.append_spells {s t : String} {ts us : List Token} (hs : Reads s ts)
    (ht : Spells t us) : Spells (s ++ t) (ts ++ us) := by
  rcases ht with ht | ⟨seen, hstate, htokens⟩
  · exact Or.inl (hs.append ht)
  · refine Or.inr ⟨seen, ?_, ?_⟩
    · rw [scanState_append, hs.1, hstate]
    · rw [scanTokens_append, hs.1, hs.2, List.append_assoc, htokens]

/-- After a word, a text that starts with a break is scanned as it is on its own. -/
theorem scan_after_word {t : String} (ht : StartsBreak t) (seen : List Char) :
    scanState t (.word seen) = scanState t .code ∧
      scanTokens t (.word seen) = .word (String.ofList seen) :: scanTokens t .code := by
  obtain ⟨c, cs, hlist, hbreak⟩ := ht
  have hstep : scanChar c (.word seen)
      = ((scanCode c).1, .word (String.ofList seen) :: (scanCode c).2) := by
    rw [scanChar, hbreak]
    rfl
  constructor
  · rw [scanState, scanState, hlist, run_cons, run_cons, hstep]
    rfl
  · rw [scanTokens, scanTokens, hlist, outputs_cons, outputs_cons, hstep]
    rfl

theorem Spells.append {s t : String} {ts us : List Token} (hs : Spells s ts) (ht : Reads t us)
    (hbreak : StartsBreak t) : Reads (s ++ t) (ts ++ us) := by
  rcases hs with hs | ⟨seen, hstate, htokens⟩
  · exact hs.append ht
  · obtain ⟨hstate', htokens'⟩ := scan_after_word hbreak seen
    constructor
    · rw [scanState_append, hstate, hstate', ht.1]
    · rw [scanTokens_append, hstate, htokens', ht.2, ← htokens, List.append_assoc]
      rfl

theorem Spells.append_spells {s t : String} {ts us : List Token} (hs : Spells s ts)
    (ht : Spells t us) (hbreak : StartsBreak t) : Spells (s ++ t) (ts ++ us) := by
  rcases ht with ht | ⟨last, hlast, htail⟩
  · exact Or.inl (hs.append ht hbreak)
  · rcases hs with hs | ⟨seen, hstate, htokens⟩
    · exact hs.append_spells (Or.inr ⟨last, hlast, htail⟩)
    · obtain ⟨hstate', htokens'⟩ := scan_after_word hbreak seen
      refine Or.inr ⟨last, ?_, ?_⟩
      · rw [scanState_append, hstate, hstate', hlast]
      · rw [scanTokens_append, hstate, htokens', ← htokens, ← htail, List.append_assoc,
          List.append_assoc]
        rfl

theorem StartsBreak.append {s : String} (h : StartsBreak s) (t : String) :
    StartsBreak (s ++ t) := by
  obtain ⟨c, cs, hlist, hbreak⟩ := h
  exact ⟨c, cs ++ t.toList, by rw [String.toList_append, hlist]; rfl, hbreak⟩

/-! ### Words and string literals -/

theorem run_word (cs seen : List Char) (hcs : ∀ c ∈ cs, isWordChar c = true) :
    run scanChar cs (.word seen) = .word (seen ++ cs) ∧
      outputs scanChar cs (.word seen) = [] := by
  induction cs generalizing seen with
  | nil => exact ⟨by rw [run_nil, List.append_nil], rfl⟩
  | cons c cs ih =>
      have hstep : scanChar c (.word seen) = (.word (seen ++ [c]), []) := by
        rw [scanChar, if_pos (hcs c List.mem_cons_self)]
      obtain ⟨hrun, hout⟩ := ih (seen ++ [c]) fun d hd => hcs d (List.mem_cons_of_mem c hd)
      constructor
      · rw [run_cons, hstep, hrun, List.append_assoc]
        rfl
      · rw [outputs_cons, hstep, hout]
        rfl

/-- **A word is one token.** -/
theorem IsWord.spells {w : String} (hw : IsWord w) : Spells w [.word w] := by
  obtain ⟨hne, hall⟩ := hw
  cases hlist : w.toList with
  | nil => exact absurd hlist hne
  | cons c cs =>
      rw [IsNamePart, hlist] at hall
      have hstep : scanChar c .code = (.word [c], []) := by
        rw [scanChar, scanCode, if_pos (hall c List.mem_cons_self)]
      obtain ⟨hrun, hout⟩ := run_word cs [c] fun d hd => hall d (List.mem_cons_of_mem c hd)
      refine Or.inr ⟨w.toList, ?_, ?_⟩
      · rw [scanState, hlist, run_cons, hstep, hrun]
        rfl
      · rw [scanTokens, hlist, outputs_cons, hstep, hout, ← hlist, String.ofList_toList]
        rfl

theorem run_str (cs seen : List Char) (hcs : ∀ c ∈ cs, isPlainChar c = true) :
    run scanChar cs (.str seen) = .str (seen ++ cs) ∧ outputs scanChar cs (.str seen) = [] := by
  induction cs generalizing seen with
  | nil => exact ⟨by rw [run_nil, List.append_nil], rfl⟩
  | cons c cs ih =>
      have hstep : scanChar c (.str seen) = (.str (seen ++ [c]), []) := by
        rw [scanChar, if_pos (hcs c List.mem_cons_self)]
      obtain ⟨hrun, hout⟩ := ih (seen ++ [c]) fun d hd => hcs d (List.mem_cons_of_mem c hd)
      constructor
      · rw [run_cons, hstep, hrun, List.append_assoc]
        rfl
      · rw [outputs_cons, hstep, hout]
        rfl

/-- `"\"%@\""`: a string literal. -/
def quoted (s : String) : String := "\"" ++ s ++ "\""

/-- **A plain string literal is one token with its content.** -/
theorem IsPlain.reads {s : String} (hs : IsPlain s) : Reads (quoted s) [.str s] := by
  obtain ⟨hrun, hout⟩ := run_str s.toList [] hs
  have hopen : scanState "\"" .code = .str [] := by decide
  have hopen' : scanTokens "\"" .code = [] := by decide
  have hs1 : scanState s (.str []) = .str s.toList := hrun
  have hs2 : scanTokens s (.str []) = [] := hout
  have hclose : scanState "\"" (.str s.toList) = .code := rfl
  have hclose' : scanTokens "\"" (.str s.toList) = [.str (String.ofList s.toList)] := rfl
  constructor
  · rw [quoted, scanState_append, scanState_append, hopen, hs1, hclose]
  · rw [quoted, scanTokens_append, scanTokens_append, scanState_append, hopen, hopen', hs1, hs2,
      hclose', String.ofList_toList]
    rfl

theorem isPlainChar_of_isWordChar {c : Char} (h : isWordChar c = true) : isPlainChar c = true := by
  have hne : ∀ d : Char, isWordChar d = false → c ≠ d := by
    intro d hd heq
    rw [heq, hd] at h
    exact absurd h Bool.false_ne_true
  simp only [isPlainChar, beq_false_of_ne (hne '"' rfl), beq_false_of_ne (hne '\\' rfl),
    beq_false_of_ne (hne '\n' rfl), Bool.or_self, Bool.not_false]

theorem IsNamePart.isPlain {name : String} (h : IsNamePart name) : IsPlain name :=
  fun c hc => isPlainChar_of_isWordChar (h c hc)

/-! ### Comments -/

theorem run_comment (cs : List Char) (hcs : ∀ c ∈ cs, c ≠ '\n') :
    run scanChar cs .comment = .comment ∧ outputs scanChar cs .comment = [] := by
  induction cs with
  | nil => exact ⟨rfl, rfl⟩
  | cons c cs ih =>
      have hne : (c == '\n') = false := beq_false_of_ne (hcs c List.mem_cons_self)
      have hstep : scanChar c .comment = (.comment, []) := by
        rw [scanChar, hne]
        rfl
      obtain ⟨hrun, hout⟩ := ih fun d hd => hcs d (List.mem_cons_of_mem c hd)
      rw [run_cons, outputs_cons, hstep]
      exact ⟨hrun, hout⟩

/-- A comment with a text in it is no token. -/
theorem reads_comment {o s e : String} (hs : ∀ c ∈ s.toList, c ≠ '\n')
    (ho : scanState o .code = .comment ∧ scanTokens o .code = [])
    (he : scanState e .comment = .code ∧ scanTokens e .comment = []) :
    Reads (o ++ s ++ e) [] := by
  obtain ⟨hrun, hout⟩ := run_comment s.toList hs
  have hs1 : scanState s .comment = .comment := hrun
  have hs2 : scanTokens s .comment = [] := hout
  constructor
  · rw [scanState_append, scanState_append, ho.1, hs1, he.1]
  · rw [scanTokens_append, scanTokens_append, scanState_append, ho.1, ho.2, hs1, hs2, he.2]
    rfl

/-! ### Numerals and numbered names -/

theorem isWordChar_digitChar {d : ℕ} (hd : d < 16) : isWordChar (digitChar d) = true := by
  have hall : ∀ e < 16, isWordChar (digitChar e) = true := by decide
  exact hall d hd

theorem isWord_decimal (n : ℕ) : IsWord (decimal n) := by
  rw [IsWord, IsNamePart, decimal, String.toList_ofList]
  refine ⟨digits_ne_nil 10 n, ?_⟩
  intro c hc
  obtain ⟨d, hd, rfl⟩ := mem_digits (show 2 ≤ 10 by omega) hc
  exact isWordChar_digitChar (show d < 16 by omega)

theorem isWord_hexNumeral (n : ℕ) : IsWord (hexNumeral n) := by
  rw [IsWord, IsNamePart, hexNumeral, String.toList_ofList]
  refine ⟨List.cons_ne_nil _ _, ?_⟩
  intro c hc
  rcases List.mem_cons.mp hc with rfl | hc
  · rfl
  · rcases List.mem_cons.mp hc with rfl | hc
    · rfl
    · obtain ⟨d, hd, rfl⟩ := mem_digits (show 2 ≤ 16 by omega) hc
      exact isWordChar_digitChar hd

theorem isWord_hexByte (b : UInt8) : IsWord (hexByte b) := by
  have hb : b.toNat < 256 := b.toNat_lt
  rw [IsWord, IsNamePart, hexByte, String.toList_ofList]
  refine ⟨List.cons_ne_nil _ _, ?_⟩
  intro c hc
  simp only [List.mem_cons, List.not_mem_nil, or_false] at hc
  rcases hc with rfl | rfl | rfl | rfl
  · rfl
  · rfl
  · exact isWordChar_digitChar (show b.toNat / 16 < 16 by omega)
  · exact isWordChar_digitChar (show b.toNat % 16 < 16 by omega)

/-- `%@%zu`: a name with a running number. -/
def numbered (stem : String) (index : ℕ) : String := stem ++ decimal index

theorem IsWord.append {s t : String} (hs : IsWord s) (ht : IsNamePart t) : IsWord (s ++ t) := by
  rw [IsWord, IsNamePart, String.toList_append]
  refine ⟨fun h => hs.1 (List.append_eq_nil_iff.mp h).1, ?_⟩
  intro c hc
  rcases List.mem_append.mp hc with hc | hc
  · exact hs.2 c hc
  · exact ht c hc

theorem isWord_numbered {stem : String} (hstem : IsWord stem) (index : ℕ) :
    IsWord (numbered stem index) := hstem.append (isWord_decimal index).2

/-- Neither text is the start of the other. -/
def Apart (s t : String) : Prop := ¬s.toList <+: t.toList ∧ ¬t.toList <+: s.toList

instance (s t : String) : Decidable (Apart s t) := inferInstanceAs (Decidable (_ ∧ _))

/-- Texts with starts that are apart differ. -/
theorem Apart.append_ne {s t : String} (h : Apart s t) (a b : String) : s ++ a ≠ t ++ b := by
  intro heq
  have hs : s.toList <+: (s ++ a).toList := by
    rw [String.toList_append]
    exact List.prefix_append _ _
  have ht : t.toList <+: (s ++ a).toList := by
    rw [heq, String.toList_append]
    exact List.prefix_append _ _
  rcases List.prefix_or_prefix_of_prefix hs ht with hst | hts
  · exact h.1 hst
  · exact h.2 hts

/-- A text whose start is apart is different. -/
theorem Apart.ne {s t : String} (h : Apart s t) (b : String) : s ≠ t ++ b := by
  have hne := h.append_ne "" b
  rw [String.append_empty] at hne
  exact hne

theorem append_right_inj {s a b : String} (h : s ++ a = s ++ b) : a = b := by
  have hlist := congrArg String.toList h
  rw [String.toList_append, String.toList_append] at hlist
  exact String.toList_injective (List.append_cancel_left hlist)

theorem numbered_injective {stem : String} {i j : ℕ} (h : numbered stem i = numbered stem j) :
    i = j := decimal_injective (append_right_inj h)

end SourceText
