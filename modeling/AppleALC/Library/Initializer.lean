import AppleALC.Library.SourceText

/-!
# Parsing C initialisers

A C file of definitions with brace initialisers is a list of declarations, each with the tokens of
its header and the tree of its initialiser.  The parser is a machine that is fed one token at a time:
an opening brace starts a level, a comma ends an item, a closing brace turns a level into one item of
the level around it, and a semicolon outside all braces emits the declaration.

As with the scanner, the results are about pieces.  `Items` is for items between two braces of which
the last may still grow, `Terminated` for items that each end in a comma, so that more may follow, and
`Lists` for either.  Where a comma is missing or has nothing in front of it, the parser leaves a stray
token behind for a reader to stumble over.

* `Init` / `Declaration` — the trees, and the declarations;
* `parseToken` — one step of the machine;
* `Lists.braces` / `declares_body` — pieces between braces, and whole definitions;
* `TextLists.entry` / `TextLists.declares` — the same, said of the text that is scanned.
-/

namespace Initializer

open OutputMachine SourceText

/-- An initialiser: an expression, or items between braces. -/
inductive Init where
  | leaf (tokens : List Token)
  | braces (items : List Init)
  deriving Inhabited

/-- A declaration.  One without an initialiser in braces has no body. -/
structure Declaration where
  header : List Token
  body : Option (List Init)

/-- The items of one pair of braces, with the item that no comma has ended yet. -/
structure Level where
  items : List Init
  pending : Option Init

/-- The parser: the header so far, the open levels from the inside out, and the finished body. -/
structure Parser where
  header : List Token
  levels : List Level
  body : Option (List Init)

def start : Parser := ⟨[], [], none⟩

def Level.close (l : Level) : List Init := l.items ++ l.pending.toList

/-- One more token of the pending expression. -/
def Level.push (t : Token) (l : Level) : Level :=
  match l.pending with
  | none => { l with pending := some (.leaf [t]) }
  | some (.leaf ts) => { l with pending := some (.leaf (ts ++ [t])) }
  | some (.braces _) => { l with pending := some (.leaf [.stray '}', t]) }

/-- Items between braces become the pending item. -/
def Level.nest (inner : List Init) (l : Level) : Level :=
  match l.pending with
  | none => { l with pending := some (.braces inner) }
  | some _ => { l with pending := some (.leaf [.stray '{']) }

/-- A comma. -/
def Level.endItem (l : Level) : Level :=
  match l.pending with
  | none => ⟨l.items ++ [.leaf [.stray ',']], none⟩
  | some i => ⟨l.items ++ [i], none⟩

/-- A closing brace. -/
def Parser.closeLevel (p : Parser) (l : Level) : List Level → Parser
  | [] => { p with levels := [], body := some l.close }
  | outer :: rest => { p with levels := outer.nest l.close :: rest }

/-- One step of the parser. -/
def parseToken (t : Token) (p : Parser) : Parser × List Declaration :=
  match p.levels with
  | [] =>
      if t = .punct '{' ∧ p.body.isNone then ({ p with levels := [⟨[], none⟩] }, [])
      else if t = .punct ';' then (start, [⟨p.header, p.body⟩])
      else ({ p with header := p.header ++ [t] }, [])
  | l :: rest =>
      if t = .punct '{' then ({ p with levels := ⟨[], none⟩ :: l :: rest }, [])
      else if t = .punct '}' then (p.closeLevel l rest, [])
      else if t = .punct ',' then ({ p with levels := l.endItem :: rest }, [])
      else ({ p with levels := l.push t :: rest }, [])

/-- The parser is between two declarations. -/
def Parser.idle (p : Parser) : Bool := p.header.isEmpty && p.levels.isEmpty && p.body.isNone

/-- The declarations of a whole text, none if it ends in the middle of one. -/
def declarations (text : String) : Option (List Declaration) :=
  if scanState text .code = .code ∧
      (run parseToken (scanTokens text .code) start).idle = true then
    some (outputs parseToken (scanTokens text .code) start)
  else none

/-! ### The words of an initialiser -/

def wordOf : Token → Option String
  | .word w => some w
  | _ => none

mutual

def Init.words : Init → List String
  | .leaf tokens => tokens.filterMap wordOf
  | .braces items => wordsOf items

def wordsOf : List Init → List String
  | [] => []
  | i :: is => i.words ++ wordsOf is

end

@[simp] theorem wordsOf_append (is js : List Init) :
    wordsOf (is ++ js) = wordsOf is ++ wordsOf js := by
  induction is with
  | nil => rfl
  | cons i is ih => rw [List.cons_append, wordsOf, ih, wordsOf, List.append_assoc]

/-! ### Items between braces -/

/-- Between braces, the tokens parse as these items. -/
def Lists (ts : List Token) (is : List Init) : Prop :=
  ∀ header items rest body, ∃ l : Level, l.close = items ++ is ∧
    run parseToken ts ⟨header, ⟨items, none⟩ :: rest, body⟩ = ⟨header, l :: rest, body⟩ ∧
      outputs parseToken ts ⟨header, ⟨items, none⟩ :: rest, body⟩ = []

/-- Between braces, the tokens parse as these items, the last one not ended yet. -/
def Items (ts : List Token) (is : List Init) : Prop :=
  ∀ header items rest body, ∃ front last, front ++ [last] = items ++ is ∧
    run parseToken ts ⟨header, ⟨items, none⟩ :: rest, body⟩
        = ⟨header, ⟨front, some last⟩ :: rest, body⟩ ∧
      outputs parseToken ts ⟨header, ⟨items, none⟩ :: rest, body⟩ = []

/-- Between braces, the tokens parse as these items, each ended by a comma. -/
def Terminated (ts : List Token) (is : List Init) : Prop :=
  ∀ header items rest body,
    run parseToken ts ⟨header, ⟨items, none⟩ :: rest, body⟩
        = ⟨header, ⟨items ++ is, none⟩ :: rest, body⟩ ∧
      outputs parseToken ts ⟨header, ⟨items, none⟩ :: rest, body⟩ = []

theorem terminated_nil : Terminated [] [] := by
  intro header items rest body
  rw [List.append_nil]
  exact ⟨rfl, rfl⟩

theorem Terminated.lists {ts : List Token} {is : List Init} (h : Terminated ts is) :
    Lists ts is := by
  intro header items rest body
  obtain ⟨hrun, hout⟩ := h header items rest body
  exact ⟨⟨items ++ is, none⟩, List.append_nil _, hrun, hout⟩

theorem Items.lists {ts : List Token} {is : List Init} (h : Items ts is) : Lists ts is := by
  intro header items rest body
  obtain ⟨front, last, hclose, hrun, hout⟩ := h header items rest body
  exact ⟨⟨front, some last⟩, hclose, hrun, hout⟩

theorem Terminated.append_items {ts us : List Token} {is js : List Init} (h : Terminated ts is)
    (h' : Items us js) : Items (ts ++ us) (is ++ js) := by
  intro header items rest body
  obtain ⟨hrun, hout⟩ := h header items rest body
  obtain ⟨front, last, hclose, hrun', hout'⟩ := h' header (items ++ is) rest body
  refine ⟨front, last, by rw [hclose, List.append_assoc], ?_, ?_⟩
  · rw [run_append, hrun, hrun']
  · rw [outputs_append, hrun, hout, hout', List.append_nil]

theorem Terminated.append {ts us : List Token} {is js : List Init} (h : Terminated ts is)
    (h' : Terminated us js) : Terminated (ts ++ us) (is ++ js) := by
  intro header items rest body
  obtain ⟨hrun, hout⟩ := h header items rest body
  obtain ⟨hrun', hout'⟩ := h' header (items ++ is) rest body
  constructor
  · rw [run_append, hrun, hrun', List.append_assoc]
  · rw [outputs_append, hrun, hout, hout', List.append_nil]

theorem Items.comma {ts : List Token} {is : List Init} (h : Items ts is) :
    Terminated (ts ++ [.punct ',']) is := by
  intro header items rest body
  obtain ⟨front, last, hclose, hrun, hout⟩ := h header items rest body
  have hstep : parseToken (.punct ',') ⟨header, ⟨front, some last⟩ :: rest, body⟩
      = (⟨header, ⟨front ++ [last], none⟩ :: rest, body⟩, []) := rfl
  constructor
  · rw [run_append, hrun, run_cons, hstep, hclose]
    rfl
  · rw [outputs_append, hrun, hout, outputs_cons, hstep]
    rfl

/-- The tokens of one expression: none of them structures an initialiser. -/
def IsExpression (ts : List Token) : Prop :=
  ts ≠ [] ∧ ∀ t ∈ ts, t ≠ .punct '{' ∧ t ≠ .punct '}' ∧ t ≠ .punct ','

instance (ts : List Token) : Decidable (IsExpression ts) := inferInstanceAs (Decidable (_ ∧ _))

theorem parseToken_expression {t : Token}
    (ht : t ≠ .punct '{' ∧ t ≠ .punct '}' ∧ t ≠ .punct ',') (header : List Token) (l : Level)
    (rest : List Level) (body : Option (List Init)) :
    parseToken t ⟨header, l :: rest, body⟩ = (⟨header, l.push t :: rest, body⟩, []) := by
  show (if t = .punct '{' then _ else _) = _
  rw [if_neg ht.1, if_neg ht.2.1, if_neg ht.2.2]

theorem run_expression (ts : List Token)
    (hts : ∀ t ∈ ts, t ≠ .punct '{' ∧ t ≠ .punct '}' ∧ t ≠ .punct ',')
    (header : List Token) (items : List Init) (seen : List Token) (rest : List Level)
    (body : Option (List Init)) :
    run parseToken ts ⟨header, ⟨items, some (.leaf seen)⟩ :: rest, body⟩
        = ⟨header, ⟨items, some (.leaf (seen ++ ts))⟩ :: rest, body⟩ ∧
      outputs parseToken ts ⟨header, ⟨items, some (.leaf seen)⟩ :: rest, body⟩ = [] := by
  induction ts generalizing seen with
  | nil => exact ⟨by rw [run_nil, List.append_nil], rfl⟩
  | cons t ts ih =>
      have hstep := parseToken_expression (hts t List.mem_cons_self) header
        ⟨items, some (.leaf seen)⟩ rest body
      obtain ⟨hrun, hout⟩ := ih (fun u hu => hts u (List.mem_cons_of_mem t hu)) (seen ++ [t])
      constructor
      · rw [run_cons, hstep]
        show run parseToken ts ⟨header, ⟨items, some (.leaf (seen ++ [t]))⟩ :: rest, body⟩ = _
        rw [hrun, List.append_assoc]
        rfl
      · rw [outputs_cons, hstep]
        exact hout

/-- **An expression is one item.** -/
theorem IsExpression.items {ts : List Token} (h : IsExpression ts) : Items ts [.leaf ts] := by
  obtain ⟨hne, hts⟩ := h
  intro header items rest body
  cases ts with
  | nil => exact absurd rfl hne
  | cons t ts =>
      have hstep := parseToken_expression (hts t List.mem_cons_self) header ⟨items, none⟩ rest body
      have hpush : Level.push t ⟨items, none⟩ = ⟨items, some (.leaf [t])⟩ := rfl
      obtain ⟨hrun, hout⟩ := run_expression ts (fun u hu => hts u (List.mem_cons_of_mem t hu))
        header items [t] rest body
      refine ⟨items, .leaf (t :: ts), rfl, ?_, ?_⟩
      · rw [run_cons, hstep, hpush, hrun]
        rfl
      · rw [outputs_cons, hstep, hpush, hout]
        rfl

/-- **Items between braces are one item.** -/
theorem Lists.braces {ts : List Token} {is : List Init} (h : Lists ts is) :
    Items (.punct '{' :: (ts ++ [.punct '}'])) [.braces is] := by
  intro header items rest body
  obtain ⟨l, hclose, hrun, hout⟩ := h header [] (⟨items, none⟩ :: rest) body
  have hopen : parseToken (.punct '{') ⟨header, ⟨items, none⟩ :: rest, body⟩
      = (⟨header, ⟨[], none⟩ :: ⟨items, none⟩ :: rest, body⟩, []) := rfl
  have hend : parseToken (.punct '}') ⟨header, l :: ⟨items, none⟩ :: rest, body⟩
      = (⟨header, ⟨items, some (.braces l.close)⟩ :: rest, body⟩, []) := rfl
  refine ⟨items, .braces is, rfl, ?_, ?_⟩
  · rw [run_cons, hopen, run_append, hrun, run_cons, hend, hclose]
    rfl
  · rw [outputs_cons, hopen, outputs_append, hrun, hout, outputs_cons, hend]
    rfl

/-! ### Declarations -/

/-- The tokens parse as these declarations. -/
def Declares (ts : List Token) (ds : List Declaration) : Prop :=
  run parseToken ts start = start ∧ outputs parseToken ts start = ds

theorem Declares.append {ts us : List Token} {ds es : List Declaration} (h : Declares ts ds)
    (h' : Declares us es) : Declares (ts ++ us) (ds ++ es) := by
  constructor
  · rw [run_append, h.1, h'.1]
  · rw [outputs_append, h.1, h.2, h'.2]

/-- The tokens of a header: none of them opens a body or ends the declaration. -/
def IsHeader (ts : List Token) : Prop := ∀ t ∈ ts, t ≠ .punct '{' ∧ t ≠ .punct ';'

instance (ts : List Token) : Decidable (IsHeader ts) :=
  inferInstanceAs (Decidable (∀ _ ∈ _, _))

theorem run_header (ts : List Token) (hts : IsHeader ts) (seen : List Token) :
    run parseToken ts ⟨seen, [], none⟩ = ⟨seen ++ ts, [], none⟩ ∧
      outputs parseToken ts ⟨seen, [], none⟩ = [] := by
  induction ts generalizing seen with
  | nil => exact ⟨by rw [run_nil, List.append_nil], rfl⟩
  | cons t ts ih =>
      obtain ⟨hbrace, hsemi⟩ := hts t List.mem_cons_self
      have hstep : parseToken t ⟨seen, [], none⟩ = (⟨seen ++ [t], [], none⟩, []) := by
        show (if t = .punct '{' ∧ _ then _ else _) = _
        rw [if_neg (fun h => hbrace h.1), if_neg hsemi]
      obtain ⟨hrun, hout⟩ := ih (fun u hu => hts u (List.mem_cons_of_mem t hu)) (seen ++ [t])
      constructor
      · rw [run_cons, hstep, hrun, List.append_assoc]
        rfl
      · rw [outputs_cons, hstep, hout]
        rfl

/-- A declaration without a body. -/
theorem declares_plain {header : List Token} (h : IsHeader header) :
    Declares (header ++ [.punct ';']) [⟨header, none⟩] := by
  obtain ⟨hrun, hout⟩ := run_header header h []
  rw [List.nil_append] at hrun
  have hend : parseToken (.punct ';') ⟨header, [], none⟩ = (start, [⟨header, none⟩]) := rfl
  constructor
  · rw [run_append, start, hrun, run_cons, hend]
    rfl
  · rw [outputs_append, start, hrun, hout, outputs_cons, hend]
    rfl

/-- **A declaration with a body.** -/
theorem declares_body {header ts : List Token} {is : List Init} (h : IsHeader header)
    (hts : Lists ts is) :
    Declares (header ++ .punct '{' :: (ts ++ [.punct '}', .punct ';']))
      [⟨header, some is⟩] := by
  obtain ⟨hrun, hout⟩ := run_header header h []
  rw [List.nil_append] at hrun
  obtain ⟨l, hclose, hrun', hout'⟩ := hts header [] [] none
  rw [List.nil_append] at hclose
  have hopen : parseToken (.punct '{') ⟨header, [], none⟩
      = (⟨header, [⟨[], none⟩], none⟩, []) := rfl
  have hend : parseToken (.punct '}') ⟨header, [l], none⟩
      = (⟨header, [], some l.close⟩, []) := rfl
  have hsemi : parseToken (.punct ';') ⟨header, [], some l.close⟩
      = (start, [⟨header, some l.close⟩]) := rfl
  constructor
  · rw [run_append, start, hrun, run_cons, hopen, run_append, hrun', run_cons,
      hend, run_cons, hsemi]
    rfl
  · rw [outputs_append, start, hrun, hout, outputs_cons, hopen, outputs_append,
      hrun', hout', outputs_cons, hend, outputs_cons, hsemi, hclose]
    rfl

/-! ### Texts -/

/-- The text between two braces. -/
def TextLists (text : String) (is : List Init) : Prop := ∃ ts, Spells text ts ∧ Lists ts is

/-- The text between two braces, not ended by a comma. -/
def TextItems (text : String) (is : List Init) : Prop := ∃ ts, Spells text ts ∧ Items ts is

/-- The text between two braces, each item ended by a comma. -/
def TextTerminated (text : String) (is : List Init) : Prop :=
  ∃ ts, Reads text ts ∧ Terminated ts is

/-- The text of whole declarations. -/
def TextDeclares (text : String) (ds : List Declaration) : Prop :=
  ∃ ts, Reads text ts ∧ Declares ts ds

/-- `"%@, %@, %@"`: the items of a format, separated by commas. -/
def fields : List String → String
  | [] => ""
  | [item] => item
  | item :: items => item ++ ", " ++ fields items

theorem declarations_of_text {text : String} {ds : List Declaration} (h : TextDeclares text ds) :
    declarations text = some ds := by
  obtain ⟨ts, ⟨hstate, htokens⟩, hrun, hout⟩ := h
  rw [declarations, htokens, hrun, hout, if_pos ⟨hstate, rfl⟩]

theorem textTerminated_nil : TextTerminated "" [] := ⟨[], Reads.empty, terminated_nil⟩

theorem TextTerminated.append {s t : String} {is js : List Init} (hs : TextTerminated s is)
    (ht : TextTerminated t js) : TextTerminated (s ++ t) (is ++ js) := by
  obtain ⟨ts, hreads, hts⟩ := hs
  obtain ⟨us, hreads', hus⟩ := ht
  exact ⟨ts ++ us, hreads.append hreads', hts.append hus⟩

theorem TextTerminated.lists {s : String} {is : List Init} (hs : TextTerminated s is) :
    TextLists s is := by
  obtain ⟨ts, hreads, hts⟩ := hs
  exact ⟨ts, hreads.spells, hts.lists⟩

theorem TextItems.lists {s : String} {is : List Init} (hs : TextItems s is) : TextLists s is := by
  obtain ⟨ts, hspells, hts⟩ := hs
  exact ⟨ts, hspells, hts.lists⟩

theorem TextDeclares.append {s t : String} {ds es : List Declaration} (hs : TextDeclares s ds)
    (ht : TextDeclares t es) : TextDeclares (s ++ t) (ds ++ es) := by
  obtain ⟨ts, hreads, hts⟩ := hs
  obtain ⟨us, hreads', hus⟩ := ht
  exact ⟨ts ++ us, hreads.append hreads', hts.append hus⟩

/-- A text without tokens declares nothing. -/
theorem textDeclares_nothing {s : String} (hs : Reads s []) : TextDeclares s [] :=
  ⟨[], hs, rfl, rfl⟩

theorem textItems_expression {s : String} {ts : List Token} (hs : Spells s ts)
    (hts : IsExpression ts) : TextItems s [.leaf ts] := ⟨ts, hs, hts.items⟩

theorem isExpression_word (w : String) : IsExpression [.word w] := by
  refine ⟨List.cons_ne_nil _ _, ?_⟩
  intro t ht
  rw [List.mem_singleton] at ht
  subst ht
  exact ⟨nofun, nofun, nofun⟩

theorem textItems_word {w : String} (hw : IsWord w) : TextItems w [.leaf [.word w]] :=
  textItems_expression hw.spells (isExpression_word w)

theorem textItems_quoted {s : String} (hs : IsPlain s) : TextItems (quoted s) [.leaf [.str s]] := by
  refine textItems_expression hs.reads.spells ⟨List.cons_ne_nil _ _, ?_⟩
  intro t ht
  rw [List.mem_singleton] at ht
  subst ht
  exact ⟨nofun, nofun, nofun⟩

theorem startsBreak_comma : StartsBreak ", " := ⟨',', [' '], rfl, rfl⟩

/-- A comma after items. -/
theorem TextItems.comma {s : String} {is : List Init} (hs : TextItems s is) :
    TextTerminated (s ++ ", ") is := by
  obtain ⟨ts, hspells, hts⟩ := hs
  have hcomma : Reads ", " [.punct ','] := by decide
  exact ⟨ts ++ [.punct ','], hspells.append hcomma startsBreak_comma, hts.comma⟩

theorem TextTerminated.append_items {s t : String} {is js : List Init} (hs : TextTerminated s is)
    (ht : TextItems t js) : TextItems (s ++ t) (is ++ js) := by
  obtain ⟨ts, hreads, hts⟩ := hs
  obtain ⟨us, hspells, hus⟩ := ht
  exact ⟨ts ++ us, hreads.append_spells hspells, hts.append_items hus⟩

theorem textItems_fields {items : List String} {iss : List (List Init)} (hne : items ≠ [])
    (h : List.Forall₂ TextItems items iss) : TextItems (fields items) iss.flatten := by
  induction h with
  | nil => exact absurd rfl hne
  | @cons item is items iss hitem hrest ih =>
      cases hrest with
      | nil =>
          rw [List.flatten_cons, List.flatten_nil, List.append_nil]
          exact hitem
      | cons hnext hrest => exact hitem.comma.append_items (ih (List.cons_ne_nil _ _))

/-- Items between braces, as one item. -/
theorem TextLists.braced {o s c : String} {is : List Init} (hs : TextLists s is)
    (ho : Reads o [.punct '{']) (hc : Reads c [.punct '}']) (hbreak : StartsBreak c) :
    TextItems (o ++ s ++ c) [.braces is] := by
  obtain ⟨ts, hspells, hts⟩ := hs
  exact ⟨_, ((ho.append_spells hspells).append hc hbreak).spells, hts.braces⟩

/-- **An entry of a table**: items between braces with a comma behind. -/
theorem TextLists.entry {o s c : String} {is : List Init} (hs : TextLists s is)
    (ho : Reads o [.punct '{']) (hc : Reads c [.punct '}', .punct ',']) (hbreak : StartsBreak c) :
    TextTerminated (o ++ s ++ c) [.braces is] := by
  obtain ⟨ts, hspells, hts⟩ := hs
  have hreads := (ho.append_spells hspells).append hc hbreak
  have hcomma := hts.braces.comma
  rw [List.cons_append, List.append_assoc] at hcomma
  rw [List.append_assoc] at hreads
  exact ⟨_, hreads, hcomma⟩

/-- **The definition of a table.**  The tokens behind the name belong to `o`. -/
theorem TextLists.declares {h o s c : String} {hs os : List Token} {is : List Init}
    (hbody : TextLists s is) (hh : Spells h hs) (ho : Reads o (os ++ [.punct '{']))
    (hbreak : StartsBreak o) (hc : Reads c [.punct '}', .punct ';']) (hbreak' : StartsBreak c)
    (hheader : IsHeader (hs ++ os)) :
    TextDeclares (h ++ o ++ s ++ c) [⟨hs ++ os, some is⟩] := by
  obtain ⟨ts, hspells, hts⟩ := hbody
  have htext := ((hh.append ho hbreak).append_spells hspells).append hc hbreak'
  have htokens := declares_body hheader hts
  have hsame : hs ++ (os ++ [Token.punct '{']) ++ ts ++ [Token.punct '}', Token.punct ';']
      = hs ++ os ++ Token.punct '{' :: (ts ++ [Token.punct '}', Token.punct ';']) := by
    simp only [List.append_assoc, List.cons_append, List.nil_append]
  rw [hsame] at htext
  exact ⟨_, htext, htokens⟩

end Initializer
