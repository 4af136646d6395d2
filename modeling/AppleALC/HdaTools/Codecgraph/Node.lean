import Mathlib.Data.Vector.Snoc
import Mathlib.Logic.Function.Basic
import AppleALC.HdaTools.Codecgraph.Items
import AppleALC.Library.PyText

/-!
# The nodes of codecgraph.py

A node of a codec from its item in the dump: the heading, the fields under it, its connections and
its amplifiers.  `none` is an exception of the script.  What goes to the error output is left out.

* `nodeInfo` — the number, the type and the capabilities in a heading;
* `fieldsOf` / `connsOf` / `activeConnOf` — the fields under it, and the connections in one of them;
* `parseAmps` — the amplifiers in a field;
* `Node.init` / `Node.init_spec` — the node, and when there is one.
-/

namespace AppleALC.HdaTools.Codecgraph

open HexWord PyText

/-! ### The heading -/

/-- The end of a heading: the rest of the type, and the capabilities. -/
def typeAndCaps : Str → Option (Str × Str)
  | [] => none
  | c :: s =>
      match ("] wcaps 0x".toList.isPrefixOf? (c :: s)).bind fun s =>
          ": ".toList.isPrefixOf? (s.dropWhile isLowerHex) with
      | some wcaps => some ([], wcaps)
      | none => (typeAndCaps s).map fun (type, wcaps) => (c :: type, wcaps)

/-- `node_info_re`: the number, the type and the capabilities. -/
def nodeInfo (item : Str) : Option (Str × Str × Str) := do
  let s ← "Node 0x".toList.isPrefixOf? item
  let rest ← " [".toList.isPrefixOf? (s.dropWhile isLowerHex)
  let (type, wcaps) ← typeAndCaps rest
  return ("0x".toList ++ s.takeWhile isLowerHex, type, wcaps)

/-- Reading the end of a heading back. -/
theorem typeAndCaps_eq {type hex : Str} (htype : ']' ∉ type) (hhex : ∀ c ∈ hex, isLowerHex c = true)
    (wcaps : Str) :
    typeAndCaps (type ++ ("] wcaps 0x".toList ++ (hex ++ (": ".toList ++ wcaps)))) =
      some (type, wcaps) := by
  have hend : (("] wcaps 0x".toList.isPrefixOf?
      ("] wcaps 0x".toList ++ (hex ++ (": ".toList ++ wcaps)))).bind fun s =>
        ": ".toList.isPrefixOf? (s.dropWhile isLowerHex)) = some wcaps := by
    rw [isPrefixOf?_append, Option.bind_some]
    rw [show hex ++ (": ".toList ++ wcaps) = hex ++ ':' :: (' ' :: wcaps) from rfl,
      (takeWhile_append_cons hhex (by decide) _).2]
    exact isPrefixOf?_append ": ".toList wcaps
  induction type with
  | nil =>
      rw [List.nil_append, show "] wcaps 0x".toList = ']' :: " wcaps 0x".toList from rfl,
        List.cons_append, typeAndCaps]
      rw [show "] wcaps 0x".toList = ']' :: " wcaps 0x".toList from rfl, List.cons_append] at hend
      rw [show "] wcaps 0x".toList = ']' :: " wcaps 0x".toList from rfl, hend]
  | cons c type ih =>
      obtain ⟨hc, htype⟩ := not_or.mp (mt List.mem_cons.mpr htype)
      rw [List.cons_append, typeAndCaps, ih htype,
        show "] wcaps 0x".toList = ']' :: " wcaps 0x".toList from rfl, List.isPrefixOf?,
        if_neg (by simpa using hc)]
      rfl

/-- Reading a heading back. -/
theorem nodeInfo_heading {nid type hex : Str} (hnid : ∀ c ∈ nid, isLowerHex c = true)
    (htype : ']' ∉ type) (hhex : ∀ c ∈ hex, isLowerHex c = true) (wcaps : Str) :
    nodeInfo ("Node 0x".toList ++ (nid ++ (" [".toList ++
      (type ++ ("] wcaps 0x".toList ++ (hex ++ (": ".toList ++ wcaps))))))) =
      some ("0x".toList ++ nid, type, wcaps) := by
  have hspan := takeWhile_append_cons hnid (show isLowerHex ' ' = false by decide)
    ('[' :: (type ++ ("] wcaps 0x".toList ++ (hex ++ (": ".toList ++ wcaps)))))
  rw [nodeInfo, isPrefixOf?_append]
  simp only [Option.bind_eq_bind, Option.bind_some]
  rw [show ∀ s : Str, " [".toList ++ s = ' ' :: ('[' :: s) from fun _ => rfl, hspan.1, hspan.2,
    show ∀ s : Str, " [".toList.isPrefixOf? (' ' :: ('[' :: s)) = some s from
      isPrefixOf?_append " [".toList,
    Option.bind_some, typeAndCaps_eq htype hhex]
  rfl

/-- A number with a sign is none. -/
theorem nodeInfo_minus (s : Str) : nodeInfo ("Node 0x".toList ++ '-' :: s) = none := by
  rw [nodeInfo, isPrefixOf?_append]
  rfl

/-! ### The fields -/

/-- The fields of a node: the text, and the items under it. -/
abbrev Fields := Str → Option (Str × Outline Str)

/-- `final_hex_re`: what is in front of a hexadecimal number at the end, and the number. -/
def finalHex : Str → Option (Str × Str)
  | [] => none
  | c :: s =>
      let number := (c :: s).dropWhile (· = ' ')
      if "0x".toList.isPrefixOf number ∧ (number.drop 2).all isLowerHex then some ([], number)
      else (finalHex s).map fun (f, number) => (c :: f, number)

/-- One item under a heading. -/
def addField (fields : Fields) (entry : Str × Outline Str) : Fields :=
  match splitFirst ':' entry.1 with
  | none => fields
  | some (f, v) =>
      match finalHex f with
      | some (f, number) =>
          Function.update
            (Function.update fields (f ++ "-hex".toList) (some (number, entry.2)))
            f (some (lstrip v, entry.2))
      | none => Function.update fields f (some (lstrip v, entry.2))

def fieldsOf (subitems : Outline Str) : Fields := subitems.tops.foldl addField fun _ => none

/-! ### The connections -/

/-- The connections in their order, each with the mark of the active one. -/
def connsOf (items : List Str) : Option (List (ℤ × Bool)) :=
  (items.flatMap split).mapM fun j =>
    (int 16 (j.rdropWhile (· = '*'))).map fun nid => (nid, "*".toList.isSuffixOf j)

/-- `active_conn`: the marked connection that comes last, or the only one. -/
def activeConnOf (conns : List (ℤ × Bool)) : Option ℤ :=
  let active := ((conns.filter Prod.snd).map Prod.fst).getLast?
  if (active = none ∨ active = some 0) ∧ conns.length = 1 then (conns.map Prod.fst).head?
  else active

/-! ### The amplifiers -/

structure Amplifier where
  ofs : ℤ
  nsteps : ℤ
  stepsize : Str
  mute : Str
  values : List ℤ
  deriving DecidableEq, Repr

/-- The capabilities of an amplifier, by name. -/
def capsOf (capstr : Str) : Option (Str → Option Str) :=
  (splitComma capstr).foldlM (fun caps cap =>
    (splitFirst '=' cap).map fun (cname, cval) => Function.update caps cname (some cval))
    fun _ => none

def ampsUpTo (amp : ℕ → Option Amplifier) : (count : ℕ) → Option (List.Vector Amplifier count)
  | 0 => some .nil
  | count + 1 => do
      let amps ← ampsUpTo amp count
      let a ← amp count
      return amps.snoc a

def parseAmps (fields : Fields) (name : Str) (count : ℕ) :
    Option (List.Vector Amplifier count) := do
  let (capstr, _) ← fields (name ++ " caps".toList)
  let capstr :=
    if capstr = "N/A".toList then "ofs=0x00, nsteps=0x00, stepsize=0x00, mute=0".toList else capstr
  let caps ← capsOf capstr
  let (valstr, _) ← fields (name ++ " vals".toList)
  let vals := findBrackets none valstr
  ampsUpTo (fun i => do
    let ofs ← int 16 (← caps "ofs".toList)
    let nsteps ← int 16 (← caps "nsteps".toList)
    let stepsize ← caps "stepsize".toList
    let mute ← caps "mute".toList
    let intvals ←
      match vals[i]? with
      | some v => (v.splitOn ' ').mapM (int 16)
      | none => some [0, 0]
    return ⟨ofs, nsteps, stepsize, mute, intvals⟩) count

/-! ### The node -/

/-- What a node is before its amplifiers are read. -/
structure NodeHead where
  nid : ℤ
  type : Str
  wcaps : List Str
  fields : Fields
  inputs : List ℤ
  activeConn : Option ℤ

namespace NodeHead

variable (n : NodeHead)

/-- `is_divided`: a pin has a part for its input and one for its output. -/
def isDivided : Bool := n.type = "Pin Complex".toList

def hasOutamp : Bool := n.wcaps.contains "Amp-Out".toList

def hasInamp : Bool := n.wcaps.contains "Amp-In".toList

/-- `many_ampins`: a mixer has an amplifier for every input. -/
def manyAmpins : Bool := n.type = "Audio Mixer".toList

def numInamps : ℕ :=
  if n.hasInamp = false then 0
  else if n.manyAmpins then n.inputs.length
  else 1

end NodeHead

structure Node extends NodeHead where
  inamps : List.Vector Amplifier toNodeHead.numInamps
  outamp : toNodeHead.hasOutamp = true → Amplifier
  outputs : List ℤ := []
  /-- The node was made up for a connection that leads nowhere. -/
  unknown : Bool := false

/-- `inamps`: the fields are not looked up if there is none. -/
def NodeHead.readInamps (head : NodeHead) : Option (List.Vector Amplifier head.numInamps) :=
  if h : head.numInamps = 0 then some ⟨[], h.symm⟩
  else parseAmps head.fields "Amp-In".toList head.numInamps

def NodeHead.readOutamp (head : NodeHead) : Option (head.hasOutamp = true → Amplifier) :=
  if h : head.hasOutamp = true then
    (parseAmps head.fields "Amp-Out".toList 1).map fun amps _ => amps.head
  else some fun h' => absurd h' h

def NodeHead.withAmps (head : NodeHead) : Option Node :=
  head.readInamps.bind fun inamps => head.readOutamp.map fun outamp =>
    { toNodeHead := head, inamps := inamps, outamp := outamp }

/-- The heading, the fields and the connections of a node. -/
def NodeHead.init (item : Str) (subitems : Outline Str) : Option NodeHead := do
  let info ← nodeInfo item
  let nid ← int 16 info.1
  let fields := fieldsOf subitems
  let conn := (fields "Connection".toList).getD (['0'], .nil)
  let num_inputs ← int 10 conn.1
  let conns ← connsOf (conn.2.tops.map Prod.fst)
  if (conns.length : ℤ) = num_inputs then
    some {
      nid := nid, type := info.2.1, wcaps := split info.2.2, fields := fields
      inputs := conns.map Prod.fst, activeConn := activeConnOf conns }
  else none

def Node.init (item : Str) (subitems : Outline Str) : Option Node :=
  (NodeHead.init item subitems).bind NodeHead.withAmps

/-! ### What a node is made of -/

/-- The amplifiers are all that is added. -/
theorem NodeHead.withAmps_spec {head : NodeHead} {n : Node} (h : head.withAmps = some n) :
    n.toNodeHead = head ∧ n.outputs = [] ∧ n.unknown = false := by
  obtain ⟨inamps, -, h⟩ := Option.bind_eq_some_iff.mp h
  obtain ⟨outamp, -, rfl⟩ := Option.map_eq_some_iff.mp h
  exact ⟨rfl, rfl, rfl⟩

/-- A node needs the fields of the amplifiers that it has. -/
theorem NodeHead.withAmps_isSome {head : NodeHead}
    (hin : head.hasInamp = true → ∀ count, (parseAmps head.fields "Amp-In".toList count).isSome)
    (hout : head.hasOutamp = true → (parseAmps head.fields "Amp-Out".toList 1).isSome) :
    head.withAmps.isSome := by
  have hinamps : head.readInamps.isSome := by
    unfold readInamps
    split
    · rfl
    · next hnum =>
      refine hin ?_ _
      by_contra hno
      exact hnum (by rw [numInamps, if_pos (Bool.eq_false_of_not_eq_true hno)])
  have houtamp : head.readOutamp.isSome := by
    unfold readOutamp
    split
    · next h => rw [Option.isSome_map]; exact hout h
    · rfl
  rw [withAmps, Option.isSome_bind, Option.any_eq_true]
  obtain ⟨inamps, hinamps⟩ := Option.isSome_iff_exists.mp hinamps
  exact ⟨inamps, hinamps, by rwa [Option.isSome_map]⟩

theorem Node.init_spec {item : Str} {subitems : Outline Str} {n : Node}
    (h : Node.init item subitems = some n) :
    NodeHead.init item subitems = some n.toNodeHead ∧ n.outputs = [] ∧ n.unknown = false := by
  obtain ⟨head, hhead, hn⟩ := Option.bind_eq_some_iff.mp h
  obtain ⟨rfl, hout, hunknown⟩ := NodeHead.withAmps_spec hn
  exact ⟨hhead, hout, hunknown⟩

theorem nodeInfo_nid {item : Str} {info : Str × Str × Str} (h : nodeInfo item = some info) :
    ∃ digits : Str, info.1 = '0' :: 'x' :: digits ∧ ∀ c ∈ digits, isLowerHex c = true := by
  obtain ⟨s, -, h⟩ := Option.bind_eq_some_iff.mp h
  obtain ⟨rest, -, h⟩ := Option.bind_eq_some_iff.mp h
  obtain ⟨ends, -, h⟩ := Option.bind_eq_some_iff.mp h
  obtain rfl := Option.some.inj h
  exact ⟨s.takeWhile isLowerHex, rfl, fun c hc => List.mem_takeWhile_imp hc⟩

/-- The number of a node is not negative. -/
theorem NodeHead.init_nid {item : Str} {subitems : Outline Str} {head : NodeHead}
    (h : NodeHead.init item subitems = some head) : 0 ≤ head.nid := by
  obtain ⟨info, hinfo, h⟩ := Option.bind_eq_some_iff.mp h
  obtain ⟨nid, hnid, h⟩ := Option.bind_eq_some_iff.mp h
  obtain ⟨num_inputs, -, h⟩ := Option.bind_eq_some_iff.mp h
  obtain ⟨conns, -, h⟩ := Option.bind_eq_some_iff.mp h
  obtain ⟨-, h⟩ := Option.ite_none_right_eq_some.mp h
  obtain rfl := Option.some.inj h
  obtain ⟨digits, hdigits, hhex⟩ := nodeInfo_nid hinfo
  rw [hdigits] at hnid
  by_cases hne : digits = []
  · have hnone : int 16 "0x".toList = none := by decide
    rw [hne] at hnid
    exact absurd (hnid.symm.trans hnone) (by simp)
  · rw [int_hexNumeral hhex hne] at hnid
    rw [← Option.some.inj hnid]
    exact Int.natCast_nonneg _

end AppleALC.HdaTools.Codecgraph
