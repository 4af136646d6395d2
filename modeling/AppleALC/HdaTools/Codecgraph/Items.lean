import Mathlib.Data.List.DropRight
import AppleALC.Library.Outline
import AppleALC.Library.ShellText

/-!
# The indented lines of a codec dump

`parse_items` of codecgraph.py reads the lines of a dump as items with the items under them.  Every
line is taken off the list once, by the call for the line that it is under.

* `parseItems` / `parseLines` — the items below a level, and those of a whole dump;
* `parseItems_spec` — what is read is laid out as its lines are, and nothing is lost;
* `parseLines_outline` — the result is the one outline of the lines.
-/

namespace AppleALC.HdaTools.Codecgraph

open ShellText

/-- `indentlevel`: the indent level of a line. -/
def indentlevel (line : Line) : ℤ := (line.takeWhile (· = ' ')).length

/-- The text of a line: no blanks around it, and no end of line. -/
def itemText (line : Line) : Line :=
  (line.rdropWhile fun c => c = ' ' || c = '\r' || c = '\n').dropWhile (· = ' ')

/-- `parse_item`: a line and the lines under it, as `items` reads them. -/
def parseItem (items : List Line → Outline Line × List Line) (line : Line) (lines : List Line) :
    (Line × Outline Line) × List Line :=
  let (subitems, lines) := items lines
  ((itemText line, subitems), lines)

/-- `parse_items`: the items deeper than a level, and the lines after them. -/
def parseItems : (fuel : ℕ) → (level : ℤ) → List Line → Outline Line × List Line
  | 0, _, lines => (.nil, lines)
  | _ + 1, _, [] => (.nil, [])
  | fuel + 1, level, line :: lines =>
      if indentlevel line ≤ level then (.nil, line :: lines)
      else
        let (item, lines) := parseItem (parseItems fuel (indentlevel line)) line lines
        let (rest, lines) := parseItems fuel level lines
        (.cons item.1 item.2 rest, lines)

def parseLines (lines : List Line) : Outline Line := (parseItems lines.length (-1) lines).1

open Outline

theorem parseItems_cons (fuel : ℕ) {level : ℤ} {line : Line} (lines : List Line)
    (h : level < indentlevel line) :
    parseItems (fuel + 1) level (line :: lines) =
      (.cons (itemText line) (parseItems fuel (indentlevel line) lines).1
          (parseItems fuel level (parseItems fuel (indentlevel line) lines).2).1,
        (parseItems fuel level (parseItems fuel (indentlevel line) lines).2).2) := by
  rw [parseItems, if_neg (not_le.mpr h)]
  rfl

/-- What is read is laid out over the level, and the lines go on no deeper than it. -/
theorem parseItems_spec (fuel : ℕ) (level : ℤ) (lines : List Line) (h : lines.length ≤ fuel) :
    ∃ f : Outline Line, f.LaidOut indentlevel level ∧
      (parseItems fuel level lines).1 = f.map itemText ∧
      lines = f.flatten ++ (parseItems fuel level lines).2 ∧
      Ends indentlevel level (parseItems fuel level lines).2 := by
  induction fuel generalizing level lines with
  | zero =>
      obtain rfl := List.length_eq_zero_iff.mp (Nat.le_zero.mp h)
      exact ⟨.nil, trivial, rfl, rfl, fun _ h => nomatch h⟩
  | succ fuel ih =>
      cases lines with
      | nil => exact ⟨.nil, trivial, rfl, rfl, fun _ h => nomatch h⟩
      | cons line lines =>
          by_cases hle : indentlevel line ≤ level
          · rw [parseItems, if_pos hle]
            exact ⟨.nil, trivial, rfl, rfl, fun a ha => Option.some.inj ha ▸ hle⟩
          · rw [List.length_cons] at h
            obtain ⟨sub, hsub, heq, hsplit, hends⟩ := ih (indentlevel line) lines (by omega)
            have hshort : (parseItems fuel (indentlevel line) lines).2.length ≤ lines.length := by
              conv_rhs => rw [hsplit, List.length_append]
              omega
            obtain ⟨rest, hrest, heq', hsplit', hends'⟩ := ih level _ (le_trans hshort (by omega))
            rw [parseItems_cons fuel lines (not_le.mp hle)]
            refine ⟨.cons line sub rest, ⟨not_le.mp hle, hsub, ?_, hrest⟩, ?_, ?_, hends'⟩
            · intro a ha
              refine hends a ?_
              rw [hsplit', List.head?_append, Option.mem_def.mp ha]
              rfl
            · rw [heq, heq']
              rfl
            · rw [flatten, List.cons_append, List.append_assoc, ← hsplit', ← hsplit]

/-- Nothing is left at the level of the whole dump. -/
theorem parseItems_rest (lines : List Line) : (parseItems lines.length (-1) lines).2 = [] := by
  obtain ⟨-, -, -, -, hends⟩ := parseItems_spec lines.length (-1) lines le_rfl
  cases hrest : (parseItems lines.length (-1) lines).2 with
  | nil => rfl
  | cons line _ =>
      rw [hrest] at hends
      have hneg := hends line (by simp)
      have hpos : 0 ≤ indentlevel line := Int.natCast_nonneg _
      omega

/-- Reading the lines of an outline back. -/
theorem parseLines_flatten {f : Outline Line} (hf : f.LaidOut indentlevel (-1)) :
    parseLines f.flatten = f.map itemText := by
  obtain ⟨g, hg, heq, hsplit, -⟩ := parseItems_spec f.flatten.length (-1) f.flatten le_rfl
  rw [parseItems_rest, List.append_nil] at hsplit
  obtain rfl := flatten_inj hf hg hsplit
  exact heq

/-- **The items are the one outline of the lines.**  All lines are read, and every line is under the
last one before it that is less indented.  No other outline of these lines has under every item what
is more indented, and beside it what is not. -/
theorem parseLines_outline (lines : List Line) :
    ∃ f : Outline Line, parseLines lines = f.map itemText ∧
      (parseItems lines.length (-1) lines).2 = [] ∧
      f.withParents none = nearestParents indentlevel [] lines ∧
      ∀ g : Outline Line, g.flatten = lines ∧ g.LaidOut indentlevel (-1) ↔ g = f := by
  obtain ⟨f, hf, heq, hsplit, -⟩ := parseItems_spec lines.length (-1) lines le_rfl
  have hall := parseItems_rest lines
  rw [hall, List.append_nil] at hsplit
  refine ⟨f, heq, hall, ?_, fun g => ⟨fun hg => flatten_inj hg.2 hf (hg.1.trans hsplit), ?_⟩⟩
  · rw [withParents_eq hf [] none (fun _ _ _ _ _ => rfl), ← hsplit]
  · rintro rfl
    exact ⟨hsplit.symm, hf⟩

end AppleALC.HdaTools.Codecgraph
