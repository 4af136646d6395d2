import AppleALC.HdaTools.Codecgraph.Signals

/-!
# From the dump of a codec to its drawing

A codec as its dump describes it: what is in front of the nodes, and for each node the heading, the
amplifiers, the connections and what else is listed.  The items of such a dump are read back, however
its lines are indented; so the paths of the drawing are the ways of the signals in the codec that the
dump describes.

* `Codec` / `Codec.Valid` — a described codec, and what its dump keeps to;
* `init_spec` — a node is read back from its items;
* `Signal` — a way through the described connections, with no pin in between;
* `draws_signals` — the dump is accepted, and the paths of its drawing are these ways.

Which dumps ALSA prints is not asked; the dump is any text that lists the description.
-/

namespace AppleALC.HdaTools.Codecgraph

open HexWord PyText Relation Outline

/-! ### The description -/

structure AmpCaps where
  ofs : ℕ
  nsteps : ℕ
  stepsize : ℕ
  mute : ℕ

/-- The amplifiers of one side of a node.  A dump need not know their capabilities. -/
structure AmpInfo where
  caps : Option AmpCaps
  vals : List (List ℕ)

def hexText (n : ℕ) : Str := '0' :: 'x' :: hex02 n

def AmpCaps.text (a : AmpCaps) : Str :=
  [',', ' '].intercalate
    ["ofs".toList ++ '=' :: hexText a.ofs, "nsteps".toList ++ '=' :: hexText a.nsteps,
      "stepsize".toList ++ '=' :: hexText a.stepsize, "mute".toList ++ '=' :: decimal a.mute]

/-- The text of the capabilities, if they are known. -/
def AmpInfo.capsText (a : AmpInfo) : Str := a.caps.elim "N/A".toList AmpCaps.text

def AmpInfo.valsText (a : AmpInfo) : Str :=
  a.vals.flatMap fun v => ' ' :: '[' :: ([' '].intercalate (v.map hexText) ++ [']'])

def ampItems (name : Str) : Option AmpInfo → List (Str × Outline Str)
  | none => []
  | some a =>
      [(name ++ " caps".toList ++ ':' :: ' ' :: a.capsText, .nil),
        (name ++ " vals".toList ++ ':' :: ' ' :: a.valsText, .nil)]

/-- A connection, with its mark if it is the active one. -/
def connText (c : ℕ × Bool) : Str := hexText c.1 ++ (if c.2 then ['*'] else [])

def connItems (conns : List (ℕ × Bool)) : List (Str × Outline Str) :=
  if conns = [] then []
  else [("Connection".toList ++ ':' :: ' ' :: decimal conns.length,
    ofList [([' '].intercalate (conns.map connText), .nil)])]

/-- A node of the codec. -/
structure Widget where
  nid : ℕ
  type : Str
  bits : Str
  wcaps : List Str
  inamp : Option AmpInfo
  outamp : Option AmpInfo
  conns : List (ℕ × Bool)
  controls : List (Str × Outline Str)
  others : List (Str × Outline Str)

namespace Widget

def heading (w : Widget) : Str :=
  "Node 0x".toList ++ (hex02 w.nid ++ (" [".toList ++ (w.type ++ ("] wcaps 0x".toList ++
    (w.bits ++ (": ".toList ++ [' '].intercalate w.wcaps))))))

def items (w : Widget) : List (Str × Outline Str) :=
  w.controls ++ ampItems "Amp-In".toList w.inamp ++ ampItems "Amp-Out".toList w.outamp ++ w.others
    ++ connItems w.conns

end Widget

/-- The amplifiers are listed, and each with a value. -/
def HasAmps (a : Option AmpInfo) : Prop := ∃ info, a = some info ∧ ∀ v ∈ info.vals, v ≠ []

/-- An item that is none of the connections or the amplifiers. -/
def IsOther (item : Str) : Prop := ¬ "Connection".toList <+: item ∧ ¬ "Amp-".toList <+: item

/-- What a dump keeps to in the description of a node. -/
structure Widget.Valid (w : Widget) : Prop where
  type_free : ']' ∉ w.type
  bits_hex : ∀ c ∈ w.bits, isLowerHex c = true
  wcaps_ne_nil : w.wcaps ≠ []
  wcaps_words : ∀ cap ∈ w.wcaps, cap ≠ [] ∧ ∀ c ∈ cap, IntegerLiteral.isSpace c = false
  inamp_listed : "Amp-In".toList ∈ w.wcaps → HasAmps w.inamp
  outamp_listed : "Amp-Out".toList ∈ w.wcaps → HasAmps w.outamp
  controls_other : ∀ e ∈ w.controls, IsOther e.1
  others_other : ∀ e ∈ w.others, IsOther e.1

/-- A codec as its dump describes it. -/
structure Codec where
  header : List (Str × Outline Str)
  widgets : List Widget

def Codec.outline (c : Codec) : Outline Str :=
  ofList (c.header ++ c.widgets.map fun w => (w.heading, ofList w.items))

/-- What a dump keeps to. -/
structure Codec.Valid (c : Codec) : Prop where
  header_other : ∀ e ∈ c.header, "Node ".toList.isPrefixOf (CodecInfo.keyItem e.1) = false
  widgets_valid : ∀ w ∈ c.widgets, w.Valid
  nids_nodup : (c.widgets.map Widget.nid).Nodup

/-! ### Reading the amplifiers -/

theorem int_hexText (n : ℕ) : int 16 (hexText n) = some (n : ℤ) := by
  obtain ⟨hhex, hne, hval⟩ := hex02_natCast n
  rw [hexText, int_hexNumeral hhex hne, hval]

/-- The characters of a number. -/
theorem mem_hexText {n : ℕ} {c : Char} (h : c ∈ hexText n) :
    c = 'x' ∨ isLowerHex c = true := by
  rw [hexText, List.mem_cons, List.mem_cons] at h
  rcases h with rfl | rfl | h
  · exact Or.inr (by decide)
  · exact Or.inl rfl
  · exact Or.inr ((hex02_natCast n).1 c h)

theorem notMem_hexText {c : Char} (hx : c ≠ 'x') (hhex : isLowerHex c = false) (n : ℕ) :
    c ∉ hexText n := by
  intro h
  rcases mem_hexText h with h | h
  · exact hx h
  · rw [hhex] at h
    cases h

theorem notMem_decimal {c : Char} (h : ∀ d < 10, c ≠ Numeral.digitChar d) (n : ℕ) :
    c ∉ decimal n := by
  intro hc
  obtain ⟨d, hd, rfl⟩ := Numeral.mem_digits (show 2 ≤ 10 by omega) hc
  exact h d hd rfl

theorem capsOf_text (a : AmpCaps) : ∃ caps, capsOf a.text = some caps ∧
    caps "ofs".toList = some (hexText a.ofs) ∧ caps "nsteps".toList = some (hexText a.nsteps) ∧
    caps "stepsize".toList = some (hexText a.stepsize) ∧
    caps "mute".toList = some (decimal a.mute) := by
  have hhex : ∀ n, ',' ∉ hexText n := notMem_hexText (by decide) (by decide)
  have hdec : ∀ n : ℕ, ',' ∉ decimal n := notMem_decimal (by decide)
  have hparts : ∀ part ∈ ["ofs".toList ++ '=' :: hexText a.ofs,
      "nsteps".toList ++ '=' :: hexText a.nsteps, "stepsize".toList ++ '=' :: hexText a.stepsize,
      "mute".toList ++ '=' :: decimal a.mute], ',' ∉ part := by simp [hhex, hdec]
  rw [capsOf, AmpCaps.text, splitComma_intercalate hparts (by simp)]
  simp only [List.foldlM_cons, List.foldlM_nil]
  rw [splitFirst_append (by decide), splitFirst_append (by decide), splitFirst_append (by decide),
    splitFirst_append (by decide)]
  exact ⟨_, rfl, rfl, rfl, rfl, rfl⟩

/-- Known capabilities begin with the first of them. -/
theorem text_eq (a : AmpCaps) : ∃ s, a.text = 'o' :: s := by
  rw [AmpCaps.text, List.intercalate_cons_of_ne_nil (by simp)]
  exact ⟨_, rfl⟩

/-- The capabilities that are read, with the ones that count where they are not known. -/
theorem capsOf_capsText (a : AmpInfo) : ∃ caps ofs nsteps stepsize mute,
    capsOf (if a.capsText = "N/A".toList then
      "ofs=0x00, nsteps=0x00, stepsize=0x00, mute=0".toList else a.capsText) = some caps ∧
    caps "ofs".toList = some ofs ∧ (int 16 ofs).isSome ∧
    caps "nsteps".toList = some nsteps ∧ (int 16 nsteps).isSome ∧
    caps "stepsize".toList = some stepsize ∧ caps "mute".toList = some mute := by
  obtain ⟨caps, vals⟩ := a
  cases caps with
  | none =>
      exact ⟨_, _, _, _, _, rfl, rfl, by decide, rfl, by decide, rfl, rfl⟩
  | some a =>
      obtain ⟨caps, hread, hofs, hnsteps, hstepsize, hmute⟩ := capsOf_text a
      have hna : a.text ≠ "N/A".toList := by
        obtain ⟨s, hs⟩ := text_eq a
        rw [hs]
        exact fun h => absurd (List.cons.inj h).1 (by decide)
      refine ⟨caps, _, _, _, _, (congrArg capsOf (if_neg hna)).trans hread, hofs, ?_, hnsteps, ?_,
        hstepsize, hmute⟩
      · rw [int_hexText]; rfl
      · rw [int_hexText]; rfl

/-- The values of an amplifier. -/
theorem mapM_hexText {v : List ℕ} (hne : v ≠ []) :
    (([' '].intercalate (v.map hexText)).splitOn ' ').mapM (int 16) =
      some (v.map fun n => (n : ℤ)) := by
  have hblank : ∀ s ∈ v.map hexText, ' ' ∉ s := by
    intro s hs
    obtain ⟨n, -, rfl⟩ := List.mem_map.mp hs
    exact notMem_hexText (by decide) (by decide) n
  rw [List.splitOn_intercalate ' ' hblank (by simpa using hne)]
  clear hne hblank
  induction v with
  | nil => rfl
  | cons n v ih =>
      rw [List.map_cons, List.mapM_cons, int_hexText, ih]
      rfl

theorem findBrackets_valsText (a : AmpInfo) :
    findBrackets none (lstrip a.valsText) = a.vals.map fun v => [' '].intercalate (v.map hexText) := by
  have hfree : ∀ s ∈ a.vals.map fun v => [' '].intercalate (v.map hexText), ']' ∉ s := by
    intro s hs hmem
    obtain ⟨v, -, rfl⟩ := List.mem_map.mp hs
    rcases mem_intercalate hmem with hc | ⟨t, ht, hc⟩
    · exact absurd hc (by decide)
    · obtain ⟨n, -, rfl⟩ := List.mem_map.mp ht
      exact notMem_hexText (by decide) (by decide) n hc
  have h := findBrackets_flatMap hfree
  rw [List.flatMap_map] at h
  rw [findBrackets_lstrip]
  exact h

theorem ampsUpTo_isSome {amp : ℕ → Option Amplifier} (h : ∀ i, (amp i).isSome) (count : ℕ) :
    (ampsUpTo amp count).isSome := by
  induction count with
  | zero => rfl
  | succ count ih =>
      obtain ⟨amps, hamps⟩ := Option.isSome_iff_exists.mp ih
      obtain ⟨a, ha⟩ := Option.isSome_iff_exists.mp (h count)
      rw [ampsUpTo, hamps, ha]
      rfl

/-- Amplifiers that are listed are read. -/
theorem parseAmps_isSome {fields : Fields} {name : Str} {a : AmpInfo} {sub sub' : Outline Str}
    (hcaps : fields (name ++ " caps".toList) = some (a.capsText, sub))
    (hvals : fields (name ++ " vals".toList) = some (lstrip a.valsText, sub'))
    (hne : ∀ v ∈ a.vals, v ≠ []) (count : ℕ) : (parseAmps fields name count).isSome := by
  obtain ⟨caps, ofs, nsteps, stepsize, mute, hread, hofs, hofsint, hnsteps, hnstepsint, hstepsize,
    hmute⟩ := capsOf_capsText a
  obtain ⟨i, hi⟩ := Option.isSome_iff_exists.mp hofsint
  obtain ⟨j, hj⟩ := Option.isSome_iff_exists.mp hnstepsint
  rw [parseAmps, hcaps, hvals]
  simp only [Option.bind_eq_bind, Option.bind_some, hread, findBrackets_valsText]
  refine ampsUpTo_isSome (fun k => ?_) count
  simp only [hofs, hnsteps, hstepsize, hmute, Option.bind_some, hi, hj, List.getElem?_map]
  cases hv : a.vals[k]? with
  | none => rfl
  | some v =>
      simp only [Option.map_some, mapM_hexText (hne v (List.mem_of_getElem? hv))]
      rfl

/-! ### Reading the connections -/

theorem connText_spec (c : ℕ × Bool) :
    (connText c).rdropWhile (· = '*') = hexText c.1 ∧ "*".toList.isSuffixOf (connText c) = c.2 := by
  obtain ⟨n, active⟩ := c
  have hstar : '*' ∉ hexText n := notMem_hexText (by decide) (by decide) n
  have hself : (hexText n).rdropWhile (· = '*') = hexText n := by
    rw [List.rdropWhile_eq_self_iff]
    intro hne hlast
    exact hstar (of_decide_eq_true hlast ▸ List.getLast_mem hne)
  cases active with
  | true =>
      refine ⟨?_, List.isSuffixOf_iff_suffix.mpr ⟨hexText n, rfl⟩⟩
      show (hexText n ++ ['*']).rdropWhile (· = '*') = hexText n
      rw [List.rdropWhile_concat_pos _ _ _ (by decide), hself]
  | false =>
      have hnil : connText (n, false) = hexText n := List.append_nil _
      rw [hnil]
      refine ⟨hself, ?_⟩
      rw [Bool.eq_false_iff]
      intro h
      exact hstar ((List.isSuffixOf_iff_suffix.mp h).subset (List.mem_singleton_self '*'))

theorem connsOf_conns (conns : List (ℕ × Bool)) :
    connsOf [[' '].intercalate (conns.map connText)] =
      some (conns.map fun c => ((c.1 : ℤ), c.2)) := by
  have hwords : ∀ word ∈ conns.map connText,
      word ≠ [] ∧ ∀ c ∈ word, IntegerLiteral.isSpace c = false := by
    intro word hword
    obtain ⟨⟨n, active⟩, -, rfl⟩ := List.mem_map.mp hword
    refine ⟨List.cons_ne_nil _ _, fun c hc => ?_⟩
    rcases List.mem_append.mp hc with hc | hc
    · rcases mem_hexText hc with rfl | hc
      · decide
      · exact isSpace_of_isLowerHex hc
    · cases active with
      | true => rw [List.mem_singleton.mp hc]; decide
      | false => cases hc
  rw [connsOf, List.flatMap_singleton, split_intercalate hwords]
  clear hwords
  induction conns with
  | nil => rfl
  | cons c conns ih =>
      obtain ⟨hnumber, hactive⟩ := connText_spec c
      rw [List.map_cons, List.mapM_cons, hnumber, hactive, int_hexText, ih]
      rfl

/-! ### Reading the fields -/

/-- The fields that a node is made of. -/
def nodeFields : List Str :=
  ["Connection", "Amp-In caps", "Amp-In vals", "Amp-Out caps", "Amp-Out vals"].map String.toList

theorem finalHex_starts {f g number : Str} (h : finalHex f = some (g, number)) : g <+: f := by
  induction f generalizing g number with
  | nil => cases h
  | cons c f ih =>
      rw [finalHex] at h
      split at h
      · obtain ⟨rfl, -⟩ := Prod.mk.inj (Option.some.inj h)
        exact List.nil_prefix
      · obtain ⟨⟨g', number'⟩, hg', heq⟩ := Option.map_eq_some_iff.mp h
        obtain ⟨rfl, -⟩ := Prod.mk.inj heq
        exact List.prefix_cons_inj c |>.mpr (ih hg')

/-- Another item is no field of these. -/
theorem addField_other {item : Str} (h : IsOther item) (fields : Fields) (sub : Outline Str)
    {key : Str} (hkey : key ∈ nodeFields) : addField fields (item, sub) key = fields key := by
  have hstart : ∀ k ∈ nodeFields, "Connection".toList <+: k ∨ "Amp-".toList <+: k := by decide
  have hend : ∀ k ∈ nodeFields, ¬ "-hex".toList <:+ k := by decide
  have hprefix : ¬ key <+: item := by
    intro hitem
    rcases hstart key hkey with hk | hk
    · exact h.1 (hk.trans hitem)
    · exact h.2 (hk.trans hitem)
  rw [addField]
  cases hsplit : splitFirst ':' item with
  | none => rfl
  | some fv =>
      obtain ⟨f, v⟩ := fv
      have hf : f <+: item := by
        obtain ⟨-, heq⟩ := Option.ite_none_right_eq_some.mp hsplit
        obtain ⟨rfl, -⟩ := Prod.mk.inj (Option.some.inj heq)
        exact List.takeWhile_prefix _
      simp only
      cases hhex : finalHex f with
      | none =>
          refine Function.update_of_ne ?_ _ _
          rintro rfl
          exact hprefix hf
      | some gn =>
          obtain ⟨g, number⟩ := gn
          simp only
          rw [Function.update_of_ne, Function.update_of_ne]
          · rintro rfl
            exact hend _ hkey (List.suffix_append g _)
          · rintro rfl
            exact hprefix ((finalHex_starts hhex).trans hf)

theorem foldl_others {l : List (Str × Outline Str)} (h : ∀ e ∈ l, IsOther e.1) (fields : Fields)
    {key : Str} (hkey : key ∈ nodeFields) : l.foldl addField fields key = fields key := by
  induction l generalizing fields with
  | nil => rfl
  | cons e l ih =>
      obtain ⟨he, hl⟩ := List.forall_mem_cons.mp h
      rw [List.foldl_cons, ih hl, addField_other he fields e.2 hkey]

/-- A field that a node is made of. -/
theorem addField_self {key : Str} (hkey : key ∈ nodeFields) (fields : Fields) (v : Str)
    (sub : Outline Str) :
    addField fields (key ++ ':' :: v, sub) = Function.update fields key (some (lstrip v, sub)) := by
  have hcolon : ∀ k ∈ nodeFields, ':' ∉ k := by decide
  have hhex : ∀ k ∈ nodeFields, finalHex k = none := by decide
  rw [addField, splitFirst_append (hcolon key hkey)]
  simp only [hhex key hkey]

theorem lstrip_blank (s : Str) : lstrip (' ' :: s) = lstrip s := rfl

theorem lstrip_capsText (a : AmpInfo) : lstrip (' ' :: a.capsText) = a.capsText := by
  obtain ⟨caps, vals⟩ := a
  cases caps with
  | none => rfl
  | some a =>
      obtain ⟨s, hs⟩ := text_eq a
      show lstrip (' ' :: a.text) = a.text
      rw [hs]
      rfl

/-- The fields of amplifiers are added. -/
theorem foldl_ampItems {name : Str} (hcaps : name ++ " caps".toList ∈ nodeFields)
    (hvals : name ++ " vals".toList ∈ nodeFields) (a : AmpInfo) (fields : Fields) :
    (ampItems name (some a)).foldl addField fields =
      Function.update (Function.update fields (name ++ " caps".toList) (some (a.capsText, .nil)))
        (name ++ " vals".toList) (some (lstrip a.valsText, .nil)) := by
  rw [ampItems, List.foldl_cons, List.foldl_cons, List.foldl_nil, addField_self hcaps,
    addField_self hvals, lstrip_capsText, lstrip_blank]

/-- Amplifiers are no other fields. -/
theorem foldl_ampItems_ne {name key : Str} (hcaps : name ++ " caps".toList ∈ nodeFields)
    (hvals : name ++ " vals".toList ∈ nodeFields) (hc : key ≠ name ++ " caps".toList)
    (hv : key ≠ name ++ " vals".toList) (a : Option AmpInfo) (fields : Fields) :
    (ampItems name a).foldl addField fields key = fields key := by
  cases a with
  | none => rfl
  | some a =>
      rw [foldl_ampItems hcaps hvals, Function.update_of_ne hv, Function.update_of_ne hc]

theorem lstrip_decimal (n : ℕ) : lstrip (' ' :: decimal n) = decimal n := by
  obtain ⟨c, cs, hcs⟩ := List.exists_cons_of_ne_nil (Numeral.digits_ne_nil 10 n)
  obtain ⟨d, hd, hc⟩ := Numeral.mem_digits (show 2 ≤ 10 by omega) (hcs ▸ List.mem_cons_self)
  have hspace : ∀ e < 10, IntegerLiteral.isSpace (Numeral.digitChar e) = false := by decide
  rw [lstrip_blank, show decimal n = c :: cs from hcs, lstrip,
    List.dropWhile_cons_of_neg (by rw [hc, hspace d hd]; simp)]

/-- The connections are added. -/
theorem foldl_connItems (conns : List (ℕ × Bool)) (fields : Fields)
    (hnone : fields "Connection".toList = none) :
    ∃ sub : Outline Str, (connItems conns).foldl addField fields "Connection".toList =
        (if conns = [] then none else some (decimal conns.length, sub)) ∧
      sub.tops.map Prod.fst = [[' '].intercalate (conns.map connText)] := by
  refine ⟨ofList [([' '].intercalate (conns.map connText), .nil)], ?_, by rw [tops_ofList]; rfl⟩
  unfold connItems
  split
  · exact hnone
  · rw [List.foldl_cons, List.foldl_nil, addField_self (by decide), Function.update_self,
      lstrip_decimal]

theorem foldl_connItems_ne (conns : List (ℕ × Bool)) (fields : Fields) {key : Str}
    (hkey : key ≠ "Connection".toList) : (connItems conns).foldl addField fields key = fields key := by
  unfold connItems
  split
  · rfl
  · rw [List.foldl_cons, List.foldl_nil, addField_self (by decide), Function.update_of_ne hkey]

/-! ### Reading a node -/

namespace Widget

variable {w : Widget}

theorem fields_connection (hw : w.Valid) :
    ∃ sub : Outline Str, fieldsOf (ofList w.items) "Connection".toList =
        (if w.conns = [] then none else some (decimal w.conns.length, sub)) ∧
      sub.tops.map Prod.fst = [[' '].intercalate (w.conns.map connText)] := by
  rw [fieldsOf, tops_ofList, items, List.foldl_append, List.foldl_append, List.foldl_append,
    List.foldl_append]
  refine foldl_connItems _ _ ?_
  rw [foldl_others hw.others_other _ (by decide),
    foldl_ampItems_ne (by decide) (by decide) (by decide) (by decide),
    foldl_ampItems_ne (by decide) (by decide) (by decide) (by decide),
    foldl_others hw.controls_other _ (by decide)]

/-- The fields of the amplifiers of the inputs. -/
theorem fields_inamp (hw : w.Valid) {a : AmpInfo} (ha : w.inamp = some a) :
    fieldsOf (ofList w.items) ("Amp-In".toList ++ " caps".toList) = some (a.capsText, .nil) ∧
      fieldsOf (ofList w.items) ("Amp-In".toList ++ " vals".toList) =
        some (lstrip a.valsText, .nil) := by
  rw [fieldsOf, tops_ofList, items, List.foldl_append, List.foldl_append, List.foldl_append,
    List.foldl_append, ha]
  constructor
  · rw [foldl_connItems_ne _ _ (by decide), foldl_others hw.others_other _ (by decide),
      foldl_ampItems_ne (by decide) (by decide) (by decide) (by decide),
      foldl_ampItems (by decide) (by decide), Function.update_of_ne (by decide), Function.update_self]
  · rw [foldl_connItems_ne _ _ (by decide), foldl_others hw.others_other _ (by decide),
      foldl_ampItems_ne (by decide) (by decide) (by decide) (by decide),
      foldl_ampItems (by decide) (by decide), Function.update_self]

/-- The fields of the amplifier of the output. -/
theorem fields_outamp (hw : w.Valid) {a : AmpInfo} (ha : w.outamp = some a) :
    fieldsOf (ofList w.items) ("Amp-Out".toList ++ " caps".toList) = some (a.capsText, .nil) ∧
      fieldsOf (ofList w.items) ("Amp-Out".toList ++ " vals".toList) =
        some (lstrip a.valsText, .nil) := by
  rw [fieldsOf, tops_ofList, items, List.foldl_append, List.foldl_append, List.foldl_append,
    List.foldl_append, ha]
  constructor
  · rw [foldl_connItems_ne _ _ (by decide), foldl_others hw.others_other _ (by decide),
      foldl_ampItems (by decide) (by decide), Function.update_of_ne (by decide), Function.update_self]
  · rw [foldl_connItems_ne _ _ (by decide), foldl_others hw.others_other _ (by decide),
      foldl_ampItems (by decide) (by decide), Function.update_self]

/-- What a node has of its description. -/
structure Describes (w : Widget) (n : NodeHead) : Prop where
  nid_eq : n.nid = w.nid
  type_eq : n.type = w.type
  inputs_eq : n.inputs = w.conns.map fun c => (c.1 : ℤ)
  activeConn_eq : n.activeConn = activeConnOf (w.conns.map fun c => ((c.1 : ℤ), c.2))

theorem init_head (hw : w.Valid) : ∃ head, NodeHead.init w.heading (ofList w.items) = some head ∧
    w.Describes head ∧ head.wcaps = w.wcaps ∧ head.fields = fieldsOf (ofList w.items) := by
  obtain ⟨sub, hconn, htops⟩ := fields_connection hw
  have hnid : int 16 ("0x".toList ++ hex02 w.nid) = some (w.nid : ℤ) := int_hexText w.nid
  have hinfo : nodeInfo w.heading =
      some ("0x".toList ++ hex02 w.nid, w.type, [' '].intercalate w.wcaps) :=
    nodeInfo_heading (hex02_natCast w.nid).1 hw.type_free hw.bits_hex _
  rw [NodeHead.init, hinfo]
  simp only [Option.bind_eq_bind, Option.bind_some, hnid, hconn]
  by_cases hnil : w.conns = []
  · have hzero : int 10 ['0'] = some 0 := by decide
    rw [if_pos hnil, Option.getD_none, hzero]
    exact ⟨_, rfl, ⟨rfl, rfl, by rw [hnil]; rfl, by rw [hnil]; rfl⟩,
      split_intercalate hw.wcaps_words, rfl⟩
  · rw [if_neg hnil, Option.getD_some, int_decimal, Option.bind_some, htops, connsOf_conns,
      Option.bind_some, if_pos (by rw [List.length_map])]
    exact ⟨_, rfl, ⟨rfl, rfl, by rw [List.map_map]; rfl, rfl⟩, split_intercalate hw.wcaps_words, rfl⟩

/-- **A node is read as it is described.** -/
theorem init_spec (hw : w.Valid) :
    ∃ n, Node.init w.heading (ofList w.items) = some n ∧ w.Describes n.toNodeHead := by
  obtain ⟨head, hhead, hdescribes, hwcaps, hfields⟩ := init_head hw
  have hsome : head.withAmps.isSome := by
    refine NodeHead.withAmps_isSome (fun hin count => ?_) fun hout => ?_
    · rw [NodeHead.hasInamp, hwcaps, List.contains_iff_mem] at hin
      obtain ⟨a, ha, hne⟩ := hw.inamp_listed hin
      obtain ⟨hcaps, hvals⟩ := fields_inamp hw ha
      exact parseAmps_isSome (hfields ▸ hcaps) (hfields ▸ hvals) hne count
    · rw [NodeHead.hasOutamp, hwcaps, List.contains_iff_mem] at hout
      obtain ⟨a, ha, hne⟩ := hw.outamp_listed hout
      obtain ⟨hcaps, hvals⟩ := fields_outamp hw ha
      exact parseAmps_isSome (hfields ▸ hcaps) (hfields ▸ hvals) hne 1
  obtain ⟨n, hn⟩ := Option.isSome_iff_exists.mp hsome
  have hinit : Node.init w.heading (ofList w.items) = some n := by
    rw [Node.init, hhead, Option.bind_some, hn]
  obtain ⟨rfl, -, -⟩ := NodeHead.withAmps_spec hn
  exact ⟨n, hinit, hdescribes⟩

end Widget

/-! ### Reading the codec -/

open CodecInfo

theorem infix_append {t s : Str} (h : t <:+: s) (u : Str) : t <:+: u ++ s :=
  h.trans (List.suffix_append u s).isInfix

/-- A heading is a key with a value. -/
theorem keyItem_heading (w : Widget) : keyItem w.heading = w.heading := by
  have hin : ": ".toList <:+: w.heading :=
    infix_append (infix_append (infix_append (infix_append (infix_append (infix_append
      (List.prefix_append _ _).isInfix _) _) _) _) _) _
  rw [keyItem, isIn, decide_eq_true hin]
  rfl

theorem readItem_heading {w : Widget} {n : Node} (ci : CodecInfo)
    (h : Node.init w.heading (ofList w.items) = some n) :
    readItem ci (w.heading, ofList w.items) = some { nodes := ci.nodes.insert n.nid n } := by
  have hnode : "Node ".toList.isPrefixOf w.heading = true := rfl
  rw [readItem, keyItem_heading, if_pos hnode, h]
  rfl

theorem foldlM_header {header : List (Str × Outline Str)}
    (h : ∀ e ∈ header, "Node ".toList.isPrefixOf (keyItem e.1) = false) (ci : CodecInfo) :
    header.foldlM readItem ci = some ci := by
  induction header with
  | nil => rfl
  | cons e header ih =>
      obtain ⟨he, hheader⟩ := List.forall_mem_cons.mp h
      rw [List.foldlM_cons, readItem, if_neg (by rw [he]; exact Bool.false_ne_true)]
      exact ih hheader

/-- The nodes are kept by their numbers. -/
theorem foldlM_widgets {ws : List Widget} (hvalid : ∀ w ∈ ws, w.Valid)
    (hnodup : (ws.map Widget.nid).Nodup) (ci : CodecInfo) :
    ∃ ci', (ws.map fun w => (w.heading, ofList w.items)).foldlM readItem ci = some ci' ∧
      (∀ w ∈ ws, ∃ n : Node, ci'.nodes.lookup (w.nid : ℤ) = some n ∧ w.Describes n.toNodeHead) ∧
      ∀ k, (∀ w ∈ ws, (w.nid : ℤ) ≠ k) → ci'.nodes.lookup k = ci.nodes.lookup k := by
  induction ws generalizing ci with
  | nil => exact ⟨ci, rfl, fun _ h => absurd h List.not_mem_nil, fun _ _ => rfl⟩
  | cons w ws ih =>
      obtain ⟨hw, hws⟩ := List.forall_mem_cons.mp hvalid
      obtain ⟨hnew, hnodup⟩ := List.nodup_cons.mp hnodup
      obtain ⟨n, hn, hdescribes⟩ := Widget.init_spec hw
      obtain ⟨ci', hread, hnodes, hkeep⟩ := ih hws hnodup { nodes := ci.nodes.insert n.nid n }
      refine ⟨ci', ?_, ?_, ?_⟩
      · rw [List.map_cons, List.foldlM_cons, readItem_heading ci hn]
        exact hread
      · intro v hv
        rcases List.mem_cons.mp hv with rfl | hv
        · refine ⟨n, ?_, hdescribes⟩
          rw [hkeep v.nid fun u hu heq => hnew (Int.ofNat.inj heq ▸ List.mem_map_of_mem hu),
            ← hdescribes.nid_eq]
          exact AList.lookup_insert _
        · exact hnodes v hv
      · intro k hk
        obtain ⟨hwk, hwsk⟩ := List.forall_mem_cons.mp hk
        rw [hkeep k hwsk]
        exact AList.lookup_insert_ne (by rw [hdescribes.nid_eq]; exact Ne.symm hwk)

namespace Codec

/-- The codec is in the dictionary: its nodes are, and no others have connections. -/
structure Shown (c : Codec) (ci : CodecInfo) : Prop where
  wired : ci.Wired
  node : ∀ w ∈ c.widgets, ∃ n : Node, ci.nodes.lookup (w.nid : ℤ) = some n ∧ w.Describes n.toNodeHead
  connected : ∀ k n, ci.nodes.lookup k = some n → n.inputs ≠ [] →
    ∃ w ∈ c.widgets, (w.nid : ℤ) = k

/-- The dump is read, however it is indented. -/
theorem init_shown {c : Codec} (hc : c.Valid) (o : ValuesOrder) {f : Outline Str}
    (hf : f.LaidOut indentlevel (-1)) (hmap : f.map itemText = c.outline) :
    ∃ ci, CodecInfo.init o f.flatten = some ci ∧ c.Shown ci := by
  obtain ⟨ci₀, hread, hnodes, hkeep⟩ := foldlM_widgets hc.widgets_valid hc.nids_nodup {}
  have hitems : (parseLines f.flatten).tops.foldlM readItem {} = some ci₀ := by
    rw [parseLines_flatten hf, hmap, outline, tops_ofList, List.foldlM_append,
      foldlM_header hc.header_other]
    exact hread
  -- all nodes are of the description
  have hfresh : ∀ k n, ci₀.nodes.lookup k = some n →
      ∃ w ∈ c.widgets, (w.nid : ℤ) = k ∧ w.Describes n.toNodeHead := by
    intro k n hn
    by_contra hno
    have hnone : ci₀.nodes.lookup k = none := by
      refine (hkeep k fun w hw heq => hno ?_).trans (AList.lookup_empty k)
      obtain ⟨m, hm, hdescribes⟩ := hnodes w hw
      rw [heq, hn] at hm
      exact ⟨w, hw, heq, Option.some.inj hm ▸ hdescribes⟩
    rw [hn] at hnone
    cases hnone
  have hnonneg : ∀ e ∈ connections (ci₀.values o), 0 ≤ e.2 := by
    intro e he
    obtain ⟨n, hn, he⟩ := List.mem_flatMap.mp he
    obtain ⟨input, hinput, rfl⟩ := List.mem_map.mp he
    obtain ⟨k, hk⟩ := mem_values.mp hn
    obtain ⟨w, -, -, hdescribes⟩ := hfresh k n hk
    rw [hdescribes.inputs_eq] at hinput
    obtain ⟨conn, -, rfl⟩ := List.mem_map.mp hinput
    exact Int.natCast_nonneg _
  obtain ⟨ci, hcreate⟩ := exists_foldlM_connect hnonneg ci₀
  have hinit : CodecInfo.init o f.flatten = some ci := by
    rw [CodecInfo.init, hitems, Option.bind_some, createOutLists, foldlM_connectAll, hcreate]
  have hlookup := foldlM_connect hcreate
  refine ⟨ci, hinit, init_wired hinit, ?_, ?_⟩
  · intro w hw
    obtain ⟨n, hn, hdescribes⟩ := hnodes w hw
    have hnode := hlookup w.nid
    rw [hn, Option.some_or, Option.map_some] at hnode
    exact ⟨_, hnode, hdescribes⟩
  · intro k n hn hne
    rw [hlookup] at hn
    obtain ⟨n₀, hn₀, rfl⟩ := Option.map_eq_some_iff.mp hn
    rcases Option.or_eq_some_iff.mp hn₀ with hdump | ⟨-, hmade⟩
    · obtain ⟨w, hw, heq, -⟩ := hfresh k n₀ hdump
      exact ⟨w, hw, heq⟩
    · split at hmade
      · exact absurd (madeUp_spec hmade).2.inputs_eq hne
      · cases hmade

end Codec

/-! ### The signals of the codec -/

namespace Widget

/-- The connection that is selected: the last one with a mark, or the only one. -/
def selected (w : Widget) : Option ℕ :=
  ((w.conns.filter Prod.snd).map Prod.fst).getLast?.or
    (if w.conns.length = 1 then (w.conns.map Prod.fst).head? else none)

def isPin (w : Widget) : Bool := w.type = "Pin Complex".toList

def source (w : Widget) : Vertex := ⟨w.nid, if w.isPin then .output else .main⟩

def sink (w : Widget) : Vertex := ⟨w.nid, if w.isPin then .input else .main⟩

theorem activeConn_eq (w : Widget) :
    activeConnOf (w.conns.map fun c => ((c.1 : ℤ), c.2)) = w.selected.map Int.ofNat := by
  have hmarked : (((w.conns.map fun c => ((c.1 : ℤ), c.2)).filter Prod.snd).map Prod.fst).getLast? =
      ((w.conns.filter Prod.snd).map Prod.fst).getLast?.map Int.ofNat := by
    rw [List.filter_map, List.map_map, List.getLast?_map, List.getLast?_map, Option.map_map]
    rfl
  have hfirst : ((w.conns.map fun c => ((c.1 : ℤ), c.2)).map Prod.fst).head? =
      (w.conns.map Prod.fst).head?.map Int.ofNat := by
    rw [List.map_map, List.head?_map, List.head?_map, Option.map_map]
    rfl
  rw [activeConnOf, hmarked, hfirst, List.length_map, selected]
  cases hlast : ((w.conns.filter Prod.snd).map Prod.fst).getLast? with
  | none =>
      rw [Option.none_or]
      by_cases hone : w.conns.length = 1
      · rw [if_pos ⟨Or.inl rfl, hone⟩, if_pos hone]
      · rw [if_neg fun h => hone h.2, if_neg hone]
  | some k =>
      rw [Option.some_or]
      split
      · next h =>
        -- the mark on the number zero does not count, but it is the only connection anyway
        obtain ⟨⟨n, active⟩, hconns⟩ := List.length_eq_one_iff.mp h.2
        rw [hconns] at hlast ⊢
        cases active with
        | true => rw [← hlast]; rfl
        | false => cases hlast
      · rfl

end Widget

namespace Codec

variable {c : Codec} {ci : CodecInfo} {only : Bool}

/-- The node `m` is connected to `n`, and the connection is selected if only such ones count.  All
connections of a mixer are. -/
def Feeds (only : Bool) (c : Codec) (m n : Widget) : Prop :=
  m ∈ c.widgets ∧ n ∈ c.widgets ∧ m.nid ∈ n.conns.map Prod.fst ∧
    (only = true → n.type = "Audio Mixer".toList ∨ n.selected = some m.nid)

/-- A signal gets from a node to another one through connections.  It does not get through a pin. -/
inductive Signal (only : Bool) (c : Codec) (a : Widget) : Widget → Prop
  | direct {b : Widget} (h : Feeds only c a b) : Signal only c a b
  | through {m b : Widget} (hm : Signal only c a m) (hone : m.isPin = false)
      (h : Feeds only c m b) : Signal only c a b

theorem feeds_iff {v w : Widget} (hv : v ∈ c.widgets) (hw : w ∈ c.widgets) {m n : Node}
    (hm : ci.nodes.lookup (v.nid : ℤ) = some m) (hvm : v.Describes m.toNodeHead)
    (hn : ci.nodes.lookup (w.nid : ℤ) = some n) (hwn : w.Describes n.toNodeHead) :
    CodecInfo.Feeds only ci m n ↔ Feeds only c v w := by
  have hmem : m.nid ∈ n.inputs ↔ v.nid ∈ w.conns.map Prod.fst := by
    rw [hvm.nid_eq, hwn.inputs_eq]
    simp
  have hactive : n.isConnActive m.nid = true ↔
      w.type = "Audio Mixer".toList ∨ w.selected = some v.nid := by
    rw [Node.isConnActive, decide_eq_true_iff, hwn.type_eq, hwn.activeConn_eq,
      Widget.activeConn_eq, hvm.nid_eq]
    refine or_congr_right ?_
    rw [Option.map_eq_some_iff]
    exact ⟨fun ⟨k, hk, heq⟩ => Int.ofNat.inj heq ▸ hk, fun h => ⟨_, h, rfl⟩⟩
  rw [CodecInfo.Feeds, Feeds, hmem, hactive, hvm.nid_eq, hwn.nid_eq]
  exact ⟨fun h => ⟨hv, hw, h.2.2⟩, fun h => ⟨hn, hm, h.2.2⟩⟩

/-- A node that a signal gets to has connections. -/
theorem inputs_of_signal {a n : Node} (h : CodecInfo.Signal only ci a n) :
    ci.nodes.lookup n.nid = some n ∧ n.inputs ≠ [] := by
  cases h with
  | direct h => exact ⟨h.1, List.ne_nil_of_mem h.2.2.1⟩
  | through _ _ h => exact ⟨h.1, List.ne_nil_of_mem h.2.2.1⟩

theorem isPin_eq {w : Widget} {n : Node} (h : w.Describes n.toNodeHead) : n.isDivided = w.isPin := by
  rw [NodeHead.isDivided, Widget.isPin, h.type_eq]

/-- The signals in the dictionary are those of the description. -/
theorem signal_iff (hs : c.Shown ci) {v w : Widget} (hv : v ∈ c.widgets) (hw : w ∈ c.widgets)
    {a b : Node} (ha : ci.nodes.lookup (v.nid : ℤ) = some a) (hva : v.Describes a.toNodeHead)
    (hb : ci.nodes.lookup (w.nid : ℤ) = some b) (hwb : w.Describes b.toNodeHead) :
    CodecInfo.Signal only ci a b ↔ Signal only c v w := by
  constructor
  · intro h
    induction h generalizing w with
    | direct h => exact .direct ((feeds_iff hv hw ha hva hb hwb).mp h)
    | @through m b hm hone h ih =>
        obtain ⟨hlookup, hinputs⟩ := inputs_of_signal hm
        obtain ⟨u, hu, hum⟩ := hs.connected m.nid m hlookup hinputs
        obtain ⟨m', hm', hdescribes⟩ := hs.node u hu
        rw [hum, hlookup] at hm'
        obtain rfl := Option.some.inj hm'
        rw [← hum] at hlookup
        exact .through (ih hu hlookup hdescribes) (isPin_eq hdescribes ▸ hone)
          ((feeds_iff hu hw hlookup hdescribes hb hwb).mp h)
  · intro h
    induction h generalizing b with
    | direct h => exact .direct ((feeds_iff hv hw ha hva hb hwb).mpr h)
    | @through u w _ hone h ih =>
        obtain ⟨m, hm, hdescribes⟩ := hs.node u h.1
        exact .through (ih h.1 hm hdescribes) (isPin_eq hdescribes ▸ hone)
          ((feeds_iff h.1 hw hm hdescribes hb hwb).mpr h)

/-- **The drawing of a dump shows the codec that the dump describes.**  However the lines of the dump
are indented, and whatever the order of the dictionary, the paths between the nodes of the codec are
the ways of the signals, and the paths of solid lines those through selected connections. -/
theorem draws_signals (hc : c.Valid) {f : Outline Str} (hf : f.LaidOut indentlevel (-1))
    (hmap : f.map itemText = c.outline) (o : ValuesOrder) (color : Amplifier → Str) :
    ∃ ci, CodecInfo.init o f.flatten = some ci ∧
      ∀ only, ∀ v ∈ c.widgets, ∀ w ∈ c.widgets,
        TransGen (Edge o color only ci) v.source.text w.sink.text ↔ Signal only c v w := by
  obtain ⟨ci, hinit, hs⟩ := init_shown hc o hf hmap
  refine ⟨ci, hinit, fun only v hv w hw => ?_⟩
  obtain ⟨a, ha, hva⟩ := hs.node v hv
  obtain ⟨b, hb, hwb⟩ := hs.node w hw
  have hsource : v.source.text = a.inampNextId := by
    rw [a.inampNextId_eq, Node.vertex, Node.sourcePlace, isPin_eq hva, hva.nid_eq]
    rfl
  have hsink : w.sink.text = b.outampNextId := by
    rw [b.outampNextId_eq, Node.vertex, Node.sinkPlace, isPin_eq hwb, hwb.nid_eq]
    rfl
  rw [hsource, hsink, path_iff hs.wired (hva.nid_eq ▸ ha) (hwb.nid_eq ▸ hb)]
  exact signal_iff hs hv hw ha hva hb hwb

def converter : Widget :=
  { nid := 2, type := "Audio Output".toList, bits := "411".toList, wcaps := ["Stereo".toList]
    inamp := none, outamp := none, conns := [], controls := [], others := [] }

def pin : Widget :=
  { nid := 20, type := "Pin Complex".toList, bits := "40058d".toList
    wcaps := ["Stereo".toList, "Amp-Out".toList], inamp := none
    outamp := some ⟨some ⟨0, 0, 0, 1⟩, [[0, 0]]⟩
    conns := [(2, false)], controls := [], others := [] }

theorem converterAndPin_valid : Codec.Valid ⟨[], [converter, pin]⟩ where
  header_other := fun _ h => absurd h List.not_mem_nil
  widgets_valid := by
    have hwords : ∀ ws : List Str, (ws.all fun w => !w.isEmpty && w.all fun c =>
        !IntegerLiteral.isSpace c) = true →
        ∀ w ∈ ws, w ≠ [] ∧ ∀ c ∈ w, IntegerLiteral.isSpace c = false := by simp
    have hconverter : converter.Valid :=
      { type_free := by decide
        bits_hex := List.all_eq_true.mp (by decide)
        wcaps_ne_nil := by decide
        wcaps_words := hwords _ (by decide)
        inamp_listed := fun h => absurd h (by decide)
        outamp_listed := fun h => absurd h (by decide)
        controls_other := fun _ h => absurd h List.not_mem_nil
        others_other := fun _ h => absurd h List.not_mem_nil }
    have hpin : pin.Valid :=
      { type_free := by decide
        bits_hex := List.all_eq_true.mp (by decide)
        wcaps_ne_nil := by decide
        wcaps_words := hwords _ (by decide)
        inamp_listed := fun h => absurd h (by decide)
        outamp_listed := fun _ => ⟨_, rfl, by simp⟩
        controls_other := fun _ h => absurd h List.not_mem_nil
        others_other := fun _ h => absurd h List.not_mem_nil }
    simp [hconverter, hpin]
  nids_nodup := by decide

/-- The lines of the sample dump are an outline of the two nodes, and its drawing has a path of solid
lines from the converter to the pin. -/
theorem draws_signals_sample : ∃ (f : Outline Str) (ci : CodecInfo), f.flatten = converterAndPin ∧
    CodecInfo.init insertionOrder f.flatten = some ci ∧
    TransGen (Edge insertionOrder (fun _ => []) true ci) converter.source.text pin.sink.text := by
  obtain ⟨f, hf, heq, hsplit, -⟩ :=
    parseItems_spec converterAndPin.length (-1) converterAndPin le_rfl
  rw [parseItems_rest, List.append_nil] at hsplit
  have hmap : f.map itemText = Codec.outline ⟨[], [converter, pin]⟩ :=
    heq.symm.trans (by decide +kernel)
  obtain ⟨ci, hinit, hpaths⟩ :=
    draws_signals converterAndPin_valid hf hmap insertionOrder fun _ => []
  refine ⟨f, ci, hsplit.symm, hinit, (hpaths true converter (by simp) pin (by simp)).mpr ?_⟩
  exact .direct ⟨by simp, by simp, by decide, fun _ => Or.inr (by decide)⟩

end Codec

end AppleALC.HdaTools.Codecgraph
