import AppleALC.ResourceConverter.Generate
import AppleALC.ResourceConverter.TablesOf

/-!
# What the pieces of text denote

A piece of generated text is read in a scope: a field denotes a value, a pair of fields denotes an
array, a sequence of entries denotes a list, and a definition adds a name to the scope.  A text is
often written long after the piece it is made of, when the scope has grown; so what a piece denotes
in a scope it denotes in every scope that extends it.

* `Denotes`, `DenotesArray`, `DenotesAll` — a field, a pair of fields, a sequence of entries;
* `Denotes.mono` — in a larger scope they denote the same;
* `Defines` / `defines_table` — a definition adds its name.
-/

namespace AppleALC.ResourceConverter

open Numeral SourceText Initializer Definitions

variable {scope scope' scope'' : Scope String Value}

/-! ### The names a piece uses -/

/-- All names that the initialisers use are in scope. -/
def InScope (scope : Scope String Value) (is : List Init) : Prop :=
  ∀ u ∈ identifiers is, u ∈ scope.names

theorem inScope_nil : InScope scope [] := by
  intro u hu
  exact absurd hu List.not_mem_nil

theorem InScope.append {is js : List Init} (h : InScope scope is) (h' : InScope scope js) :
    InScope scope (is ++ js) := by
  intro u hu
  rw [identifiers, wordsOf_append, List.filter_append, List.mem_append] at hu
  rcases hu with hu | hu
  · exact h u hu
  · exact h' u hu

theorem InScope.braces {is : List Init} (h : InScope scope is) : InScope scope [.braces is] := by
  intro u hu
  refine h u ?_
  rw [identifiers, wordsOf, Init.words, wordsOf, List.append_nil] at hu
  exact hu

theorem InScope.mono {is : List Init} (h : InScope scope is) (hext : Extends scope scope') :
    InScope scope' is := fun u hu => hext.names (h u hu)

/-- A leaf whose words are no identifiers. -/
theorem inScope_leaf {ts : List Token} (h : ∀ w ∈ ts.filterMap wordOf, isIdentifier w = false) :
    InScope scope [.leaf ts] := by
  intro u hu
  rw [identifiers, wordsOf, Init.words, wordsOf, List.append_nil, List.mem_filter] at hu
  rw [h u hu.1] at hu
  exact absurd hu.2 Bool.false_ne_true

theorem inScope_word {w : String} (h : w ∈ scope.names) : InScope scope [.leaf [.word w]] := by
  intro u hu
  have hword : u ∈ [w] := (List.mem_filter.mp hu).1
  rw [List.mem_singleton] at hword
  rw [hword]
  exact h

theorem not_isIdentifier {w : String} {c : Char} {cs : List Char} (hw : w.toList = c :: cs)
    (hc : c.isDigit = true) : isIdentifier w = false := by
  rw [isIdentifier, hw, List.head?_cons]
  simp only [Option.elim_some, hc, Bool.not_true, Bool.false_and]

theorem isDigit_digitChar {d : ℕ} (hd : d < 10) : (digitChar d).isDigit = true := by
  have hall : ∀ e < 10, (digitChar e).isDigit = true := by decide
  exact hall d hd

theorem not_isIdentifier_decimal (n : ℕ) : isIdentifier (decimal n) = false := by
  rcases hlist : digits 10 n with _ | ⟨c, cs⟩
  · exact absurd hlist (digits_ne_nil 10 n)
  · obtain ⟨d, hd, rfl⟩ := mem_digits (show 2 ≤ 10 by omega)
      (show c ∈ digits 10 n by rw [hlist]; exact List.mem_cons_self)
    have htext : (decimal n).toList = digitChar d :: cs := by
      rw [decimal, String.toList_ofList, hlist]
    exact not_isIdentifier htext (isDigit_digitChar hd)

/-! ### Fields -/

/-- The text is one initialiser that reads as `a`. -/
def Denotes {α : Type} (scope : Scope String Value) (read : Scope String Value → Init → Option α)
    (text : String) (a : α) : Prop :=
  ∃ i, TextItems text [i] ∧ InScope scope [i] ∧
    ∀ scope', Extends scope scope' → read scope' i = some a

theorem Denotes.mono {α : Type} {read : Scope String Value → Init → Option α} {text : String}
    {a : α} (h : Denotes scope read text a) (hext : Extends scope scope') :
    Denotes scope' read text a := by
  obtain ⟨i, htext, hscope, hread⟩ := h
  exact ⟨i, htext, hscope.mono hext, fun scope'' hext' => hread scope'' (hext.trans hext')⟩

theorem Denotes.uint16 {text : String} {n : ℕ} (h : Denotes scope (fun _ => readNumber) text n)
    (hn : n < 65536) : Denotes scope (fun _ => readUInt16) text (UInt16.ofNat n) := by
  obtain ⟨i, htext, hscope, hread⟩ := h
  refine ⟨i, htext, hscope, fun scope' hext => ?_⟩
  have hnumber : readNumber i = some n := hread scope' hext
  show readUInt16 i = _
  rw [readUInt16, hnumber, Option.bind_some, if_pos hn]

theorem Denotes.uint32 {text : String} {n : ℕ} (h : Denotes scope (fun _ => readNumber) text n)
    (hn : n < 4294967296) : Denotes scope (fun _ => readUInt32) text (UInt32.ofNat n) := by
  obtain ⟨i, htext, hscope, hread⟩ := h
  refine ⟨i, htext, hscope, fun scope' hext => ?_⟩
  have hnumber : readNumber i = some n := hread scope' hext
  show readUInt32 i = _
  rw [readUInt32, hnumber, Option.bind_some, if_pos hn]

theorem Denotes.uint32_toNat {text : String} {v : UInt32}
    (h : Denotes scope (fun _ => readNumber) text v.toNat) :
    Denotes scope (fun _ => readUInt32) text v := by
  have hv := h.uint32 v.toNat_lt
  rw [UInt32.ofNat_toNat] at hv
  exact hv

variable (scope)

/-- A word that is no identifier, read as a number. -/
theorem denotes_numeral {w : String} {n : ℕ} (hw : IsWord w) (hid : isIdentifier w = false)
    (hn : Numeral.read w = some n) : Denotes scope (fun _ => readNumber) w n := by
  refine ⟨.leaf [.word w], textItems_word hw, inScope_leaf ?_, fun _ _ => hn⟩
  intro v hv
  rw [List.mem_singleton.mp (show v ∈ [w] from hv)]
  exact hid

theorem denotes_decimal (n : ℕ) : Denotes scope (fun _ => readNumber) (decimal n) n :=
  denotes_numeral scope (isWord_decimal n) (not_isIdentifier_decimal n) (read_decimal n)

theorem denotes_hexNumeral (n : ℕ) : Denotes scope (fun _ => readNumber) (hexNumeral n) n := by
  have htext : (hexNumeral n).toList = '0' :: 'x' :: digits 16 n := by
    rw [hexNumeral, String.toList_ofList]
  exact denotes_numeral scope (isWord_hexNumeral n) (not_isIdentifier htext rfl) (read_hexNumeral n)

theorem denotes_quoted {s : String} (hs : IsPlain s) :
    Denotes scope (fun _ => readString) (quoted s) s := by
  refine ⟨.leaf [.str s], textItems_quoted hs, inScope_leaf ?_, fun _ _ => rfl⟩
  intro v hv
  exact absurd hv List.not_mem_nil

/-- A constant of the headers. -/
theorem denotes_constant {text : String} {ts : List Token} {n : ℕ} (hs : Spells text ts)
    (hts : IsExpression ts) (hid : ∀ w ∈ ts.filterMap wordOf, isIdentifier w = false)
    (hn : readNumber (.leaf ts) = some n) : Denotes scope (fun _ => readNumber) text n :=
  ⟨.leaf ts, textItems_expression hs hts, inScope_leaf hid, fun _ _ => hn⟩

theorem denotes_hexByte (b : UInt8) : Denotes scope (fun _ => readUInt8) (hexByte b) b := by
  have htext : (hexByte b).toList = '0' :: 'x' :: [digitChar (b.toNat / 16),
      digitChar (b.toNat % 16)] := by rw [hexByte, String.toList_ofList]
  obtain ⟨i, hlists, hscope, hread⟩ := denotes_numeral scope (isWord_hexByte b)
    (not_isIdentifier htext rfl) (read_hexByte b)
  refine ⟨i, hlists, hscope, fun scope' hext => ?_⟩
  have hnumber : readNumber i = some b.toNat := hread scope' hext
  show readUInt8 i = some b
  rw [readUInt8, hnumber, Option.bind_some, if_pos b.toNat_lt, UInt8.ofNat_toNat]

theorem denotes_bool (b : Bool) :
    Denotes scope (fun _ => readBool) (if b = true then "true" else "false") b := by
  cases b with
  | true => exact ⟨.leaf [.word "true"], textItems_word (by decide), inScope_leaf (by decide),
      fun _ _ => rfl⟩
  | false => exact ⟨.leaf [.word "false"], textItems_word (by decide), inScope_leaf (by decide),
      fun _ _ => rfl⟩

theorem denotes_kernel (kernel : Option UInt32) :
    Denotes scope (fun _ => readUInt32) (kernelText kernel) (kernel.getD KernelAny) := by
  cases kernel with
  | some v => exact (denotes_decimal scope v.toNat).uint32_toNat
  | none =>
      have hspells : Spells "KernelPatcher::KernelAny" (qualified ["KernelPatcher", "KernelAny"]) :=
        Or.inr ⟨"KernelAny".toList, by decide, by decide⟩
      exact (denotes_constant scope hspells (by decide) (by decide) (by decide)).uint32_toNat

theorem denotes_platform (platform : Option UInt32) :
    Denotes scope (fun _ => readUInt32) (platformText platform) (platform.getD PlatformAny) := by
  cases platform with
  | some v => exact (denotes_decimal scope v.toNat).uint32_toNat
  | none =>
      have hspells : Spells "ControllerModInfo::PlatformAny"
          (qualified ["ControllerModInfo", "PlatformAny"]) :=
        Or.inr ⟨"PlatformAny".toList, by decide, by decide⟩
      exact (denotes_constant scope hspells (by decide) (by decide) (by decide)).uint32_toNat

theorem denotes_model (model : Option String) :
    Denotes scope (fun _ => readUInt32) (modelText model) (computerModelOf model) := by
  have hlaptop : Spells "WIOKit::ComputerModel::ComputerLaptop"
      (qualified ["WIOKit", "ComputerModel", "ComputerLaptop"]) :=
    Or.inr ⟨"ComputerLaptop".toList, by decide, by decide⟩
  have hdesktop : Spells "WIOKit::ComputerModel::ComputerDesktop"
      (qualified ["WIOKit", "ComputerModel", "ComputerDesktop"]) :=
    Or.inr ⟨"ComputerDesktop".toList, by decide, by decide⟩
  have hany : Spells "WIOKit::ComputerModel::ComputerAny"
      (qualified ["WIOKit", "ComputerModel", "ComputerAny"]) :=
    Or.inr ⟨"ComputerAny".toList, by decide, by decide⟩
  rw [modelText, computerModelOf]
  by_cases hl : model = some "Laptop"
  · rw [if_pos hl, if_pos hl]
    exact (denotes_constant scope hlaptop (by decide) (by decide) (by decide)).uint32_toNat
  · rw [if_neg hl, if_neg hl]
    by_cases hd : model = some "Desktop"
    · rw [if_pos hd, if_pos hd]
      exact (denotes_constant scope hdesktop (by decide) (by decide) (by decide)).uint32_toNat
    · rw [if_neg hd, if_neg hd]
      exact (denotes_constant scope hany (by decide) (by decide) (by decide)).uint32_toNat

variable {scope}

/-! ### Pointers with counts -/

/-- The text is a pointer and a count that read as the table `xs`. -/
def DenotesArray {α : Type} (scope : Scope String Value) (select : Value → Option (List α))
    (text : String) (xs : Option (List α)) : Prop :=
  ∃ pointer count, TextItems text [pointer, count] ∧ InScope scope [pointer, count] ∧
    readNumber count = some (xs.getD []).length ∧
      ∀ scope', Extends scope scope' → readArray scope' select pointer count = some xs

theorem DenotesArray.mono {α : Type} {select : Value → Option (List α)} {text : String}
    {xs : Option (List α)} (h : DenotesArray scope select text xs) (hext : Extends scope scope') :
    DenotesArray scope' select text xs := by
  obtain ⟨p, c, htext, hscope, hcount, hread⟩ := h
  exact ⟨p, c, htext, hscope.mono hext, hcount, fun _ hext' => hread _ (hext.trans hext')⟩

/-- Two fields with a comma between them. -/
theorem textItems_pair {s t : String} {i j : Init} (hs : TextItems s [i]) (ht : TextItems t [j]) :
    TextItems (fields [s, t]) [i, j] :=
  textItems_fields (List.cons_ne_nil _ _) (.cons hs (.cons ht .nil))

theorem readArray_word {α : Type} (select : Value → Option (List α)) (w : String) {count : Init}
    {n : ℕ} (hn : readNumber count = some n) :
    readArray scope select (.leaf [.word w]) count =
      if w = "nullptr" then (if n = 0 then some none else none)
      else ((scope.lookup w).bind select).bind fun xs =>
        if xs.length = n then some (some xs) else none := by
  simp only [readArray, hn]

theorem denotesArray_null {α : Type} (select : Value → Option (List α)) :
    DenotesArray scope select nullTable none := by
  have htext : nullTable = fields ["nullptr", decimal 0] := by decide
  obtain ⟨c, hlists, hscope, hread⟩ := denotes_decimal scope 0
  have hcount : readNumber c = some 0 := hread scope (Extends.refl scope)
  refine ⟨.leaf [.word "nullptr"], c, ?_, ?_, hcount, ?_⟩
  · rw [htext]
    exact textItems_pair (textItems_word (by decide)) hlists
  · have hnull : InScope scope [.leaf [.word "nullptr"]] := inScope_leaf (by decide)
    exact hnull.append hscope
  · intro scope' _
    rw [readArray_word select "nullptr" hcount]
    rfl

/-- **A pointer to a table in scope**, with the length of the table. -/
theorem denotesArray_table {α : Type} {select : Value → Option (List α)} {name : String} {v : Value}
    {xs : List α} (hw : IsWord name) (hnull : name ≠ "nullptr") (hname : scope.lookup name = some v)
    (hv : select v = some xs) :
    DenotesArray scope select (fields [name, decimal xs.length]) (some xs) := by
  obtain ⟨c, hlists, hscope, hread⟩ := denotes_decimal scope xs.length
  have hcount : readNumber c = some xs.length := hread scope (Extends.refl scope)
  refine ⟨.leaf [.word name], c, textItems_pair (textItems_word hw) hlists, ?_, hcount, ?_⟩
  · exact (inScope_word (mem_names_iff.mpr ⟨v, hname⟩)).append hscope
  · intro scope' hext
    rw [readArray_word select name hcount, if_neg hnull, hext name v hname, Option.bind_some, hv,
      Option.bind_some, if_pos rfl]

/-! ### Entries -/

/-- The text is a sequence of initialisers that read as `as`. -/
def DenotesAll {α : Type} (scope : Scope String Value) (read : Scope String Value → Init → Option α)
    (text : String) (as : List α) : Prop :=
  ∃ is, TextTerminated text is ∧ InScope scope is ∧
    ∀ scope', Extends scope scope' → is.mapM (read scope') = some as

variable {α : Type} {read : Scope String Value → Init → Option α}

theorem denotesAll_nil : DenotesAll scope read "" [] :=
  ⟨[], textTerminated_nil, inScope_nil, fun _ _ => rfl⟩

theorem DenotesAll.mono {text : String} {as : List α} (h : DenotesAll scope read text as)
    (hext : Extends scope scope') : DenotesAll scope' read text as := by
  obtain ⟨is, htext, hscope, hread⟩ := h
  exact ⟨is, htext, hscope.mono hext, fun _ hext' => hread _ (hext.trans hext')⟩

theorem DenotesAll.append {s t : String} {as bs : List α} (hs : DenotesAll scope read s as)
    (ht : DenotesAll scope read t bs) : DenotesAll scope read (s ++ t) (as ++ bs) := by
  obtain ⟨is, htext, hscope, hread⟩ := hs
  obtain ⟨js, htext', hscope', hread'⟩ := ht
  refine ⟨is ++ js, htext.append htext', hscope.append hscope', fun scope'' hext => ?_⟩
  rw [List.mapM_append, hread _ hext, hread' _ hext]
  rfl

theorem Denotes.item {text : String} {a : α} (h : Denotes scope read text a) :
    DenotesAll scope read (text ++ ", ") [a] := by
  obtain ⟨i, htext, hscope, hread⟩ := h
  refine ⟨[i], htext.comma, hscope, fun scope' hext => ?_⟩
  rw [List.mapM_cons, hread _ hext]
  rfl

/-- The items of a list, each with its comma. -/
theorem denotesAll_items {texts : List String} {as : List α}
    (h : List.Forall₂ (Denotes scope read) texts as) :
    DenotesAll scope read (texts.foldl (fun str item => str ++ item ++ ", ") "") as := by
  have hall : ∀ {texts as}, List.Forall₂ (Denotes scope read) texts as → ∀ s bs,
      DenotesAll scope read s bs →
        DenotesAll scope read (texts.foldl (fun str item => str ++ item ++ ", ") s) (bs ++ as) := by
    intro texts as h
    induction h with
    | nil =>
        intro s bs hs
        rw [List.append_nil]
        exact hs
    | @cons text a texts as htext hrest ih =>
        intro s bs hs
        rw [List.foldl_cons, String.append_assoc, List.append_cons]
        exact ih _ _ (hs.append htext.item)
  exact hall h "" [] denotesAll_nil

/-- The end of an entry. -/
def EndsEntry (close : String) : Prop := Reads close [.punct '}', .punct ','] ∧ StartsBreak close

/-- **An entry of a table.** -/
theorem denotesAll_entry {body close : String} {is : List Init} {a : α}
    (hbody : TextItems body is) (hclose : EndsEntry close) (hscope : InScope scope is)
    (hread : ∀ scope', Extends scope scope' → read scope' (.braces is) = some a) :
    DenotesAll scope read ("\t\x7b " ++ body ++ close) [a] := by
  have hopen : Reads "\t\x7b " [.punct '{'] := by decide
  refine ⟨[.braces is], hbody.lists.entry hopen hclose.1 hclose.2, hscope.braces, fun scope' hext => ?_⟩
  rw [List.mapM_cons, hread _ hext]
  rfl

theorem endsEntry_line : EndsEntry " \x7d,\n" := ⟨by decide, ' ', ['}', ',', '\n'], rfl, rfl⟩

theorem FileTable.endsEntry (t : FileTable) : EndsEntry t.entryEnd := by
  cases t with
  | platforms => exact ⟨by decide, '}', [',', '\n'], rfl, rfl⟩
  | layouts => exact endsEntry_line

/-! ### Definitions -/

/-- Reading the text after what defined `scope` gives `scope'`. -/
def Defines (scope : Scope String Value) (text : String) (scope' : Scope String Value) : Prop :=
  ∃ ds, TextDeclares text ds ∧ resolve language ds scope = some scope'

/-- The text between the braces of a definition reads as `v`. -/
def DenotesTable (scope : Scope String Value) (k : Kind) (text : String) (v : Value) : Prop :=
  ∃ is, TextLists text is ∧ InScope scope is ∧ readTable scope k is = some v

theorem Defines.append {s t : String} (hs : Defines scope s scope')
    (ht : Defines scope' t scope'') : Defines scope (s ++ t) scope'' := by
  obtain ⟨ds, htext, hread⟩ := hs
  obtain ⟨es, htext', hread'⟩ := ht
  exact ⟨ds ++ es, htext.append htext', resolve_append hread hread'⟩

/-- Blank lines, comments and `#include` lines. -/
theorem defines_nothing {text : String} (h : Reads text []) : Defines scope text scope :=
  ⟨[], textDeclares_nothing h, resolve_nil⟩

theorem readHeader_front (k : Kind) (name : String) :
    readHeader (k.front ++ [.word name] ++ k.back) = some (k, name) := by
  cases k <;> rfl

theorem isHeader_front (k : Kind) (name : String) :
    IsHeader (k.front ++ [.word name] ++ k.back) := by
  cases k <;> simp [IsHeader, Kind.front, Kind.back]

theorem not_ignored_front (k : Kind) (name : String) (body : Option (List Init)) :
    language.ignores ⟨k.front ++ [.word name] ++ k.back, body⟩ = false := by
  cases k <;> rfl

/-- **The definition of a table** adds its name to the scope. -/
theorem defines_table {k : Kind} {name head brackets body close : String} {v : Value}
    (hbody : DenotesTable scope k body v) (hfresh : name ∉ scope.names)
    (hhead : Spells head (k.front ++ [.word name]))
    (hbrackets : Reads brackets (k.back ++ [.punct '{'])) (hbreak : StartsBreak brackets)
    (hclose : Reads close [.punct '}', .punct ';']) (hbreak' : StartsBreak close) :
    Defines scope (head ++ brackets ++ body ++ close) ((name, v) :: scope) := by
  obtain ⟨is, hlists, hscope, hread⟩ := hbody
  have hheader := readHeader_front k name
  refine ⟨_, hlists.declares hhead hbrackets hbreak hclose hbreak' (isHeader_front k name), ?_⟩
  have hname : language.name ⟨k.front ++ [.word name] ++ k.back, some is⟩ = some name := by
    show (readHeader _).map Prod.snd = some name
    rw [hheader]
    rfl
  have hvalue : language.value scope ⟨k.front ++ [.word name] ++ k.back, some is⟩ = some v :=
    (language_value scope hheader is).trans hread
  rw [resolve_cons, define_fresh (not_ignored_front k name _) hname hfresh hscope hvalue]
  rfl

/-- The entries of a table whose initialisers are read one by one. -/
theorem DenotesAll.table {k : Kind} {text : String} {as : List α} {mk : List α → Value}
    (h : DenotesAll scope read text as)
    (hread : ∀ is, readTable scope k is = (is.mapM (read scope)).map mk) :
    DenotesTable scope k text (mk as) := by
  obtain ⟨is, htext, hscope, hall⟩ := h
  refine ⟨is, htext.lists, hscope, ?_⟩
  rw [hread, hall scope (Extends.refl scope), Option.map_some]

/-- The definition of a numbered table whose entries stand on lines of their own. -/
theorem defines_lines {k : Kind} {front stem body : String} {index : ℕ} {v : Value}
    (hbody : DenotesTable scope k body v) (hfresh : numbered stem index ∉ scope.names)
    (hfront : Reads front k.front) (hstem : IsWord stem)
    (hback : k.back = [.punct '[', .punct ']']) :
    Defines scope (front ++ numbered stem index ++ "[] \x7b\n" ++ body ++ "\x7d;\n")
      ((numbered stem index, v) :: scope) := by
  refine defines_table hbody hfresh (hfront.append_spells (isWord_numbered hstem index).spells) ?_
    ⟨'[', [']', ' ', '{', '\n'], rfl, rfl⟩ (by decide) ⟨'}', [';', '\n'], rfl, rfl⟩
  rw [hback]
  decide

/-- The definition of a table that `kern_resources.hpp` declares. -/
theorem defines_exported {k : Kind} {front name body : String} {v : Value}
    (hbody : DenotesTable scope k body v) (hfresh : name ∉ scope.names)
    (hfront : Reads front k.front) (hname : IsWord name)
    (hback : k.back = [.punct ')', .punct '[', .punct ']']) :
    Defines scope (front ++ name ++ ")[] \x7b\n" ++ body ++ "\x7d;\n") ((name, v) :: scope) := by
  refine defines_table hbody hfresh (hfront.append_spells hname.spells) ?_
    ⟨')', ['[', ']', ' ', '{', '\n'], rfl, rfl⟩ (by decide) ⟨'}', [';', '\n'], rfl, rfl⟩
  rw [hback]
  decide

/-- The definition that `makeStringList` writes. -/
theorem defines_list {k : Kind} {type stem : String} {index : ℕ} {items : List String} {v : Value}
    (hbody : DenotesTable scope k (items.foldl (fun str item => str ++ item ++ ", ") "") v)
    (hfresh : numbered stem index ∉ scope.names)
    (hfront : Reads ("static const " ++ type ++ " ") k.front) (hstem : IsWord stem)
    (hback : k.back = [.punct '[', .punct ']']) :
    Defines scope (makeList type stem index items) ((numbered stem index, v) :: scope) := by
  refine defines_table hbody hfresh (hfront.append_spells (isWord_numbered hstem index).spells) ?_
    ⟨'[', [']', ' ', '{', ' '], rfl, rfl⟩ (by decide) ⟨'}', [';', '\n'], rfl, rfl⟩
  rw [hback]
  decide

/-- The definition of a size constant. -/
theorem defines_size {name : String} (hname : IsWord name) (hfresh : name ∉ scope.names) (n : ℕ) :
    Defines scope (sizeText name n) ((name, .size n) :: scope) := by
  obtain ⟨i, htext, hscope, hread⟩ := denotes_decimal scope n
  have hnumber : readNumber i = some n := hread scope (Extends.refl scope)
  have hbody : DenotesTable scope .size (decimal n) (.size n) := by
    refine ⟨[i], htext.lists, hscope, ?_⟩
    rw [readTable, List.head?_cons, Option.bind_some, hnumber]
    rfl
  have hfront : Reads "\nconst size_t ADDPR(" Kind.size.front := by decide
  exact defines_table hbody hfresh (hfront.append_spells hname.spells) (by decide)
    ⟨')', [' ', '{'], rfl, rfl⟩ (by decide) ⟨'}', [';', '\n'], rfl, rfl⟩

end AppleALC.ResourceConverter
