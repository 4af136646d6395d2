import AppleALC.Library.HexWord
import AppleALC.Library.Reassign
import AppleALC.Library.ShellText

/-!
# verbit.sh

The script that reads the pins of a codec from an ALSA dump and corrects their configurations for
AppleHDA: every pin gets an association of its own and the sequence zero, the jack detection is on,
and the front panel is no location.  The result is a list of verbs, four for each pin.

What the script only shows (the tables and the debug file) is left out.

* `readPins` — the pins of the dump that are of use, and the address of the codec;
* `correctAssocs` / `nverbcs` — the associations they are given;
* `nverbd` / `nverbf` — the corrections of the other bytes;
* `verbit` — the corrected verbs, in one line.
-/

namespace AppleALC.HdaTools

open HexWord IntegerLiteral ShellText

/-! ### Reading the dump -/

structure VerbPin where
  desc : Line
  jack : List Char
  color : List Char
  hexnode : Line
  pin : Line
  deriving DecidableEq, Repr

def blacklist : List Line :=
  ["411111f0".toList, "400000f0".toList, "CD at Int ATAPI".toList]

def VerbPin.blacklisted (p : VerbPin) : Bool :=
  let chkblklist := echo (p.jack ++ [' '] ++ p.color ++ [' '] ++ p.desc ++ [' '] ++ p.hexnode
    ++ " 0x".toList ++ p.pin)
  blacklist.any fun entry => contains entry chkblklist

def isCodecDump (codecfile : List Line) : Bool :=
  let chk := (((codecfile.take 4).filter fun line => !contains "AFG Function Id".toList line).map
    (cutField 1 ':')).flatten.filter (· ≠ ' ')
  chk == "CodecAddressVendorId".toList

/-- `codecaddr`, without the blank in front of it. -/
def codecAddress (codecfile : List Line) : Line :=
  echo (unlines (((codecfile.take 10).filter (contains "Address:".toList)).map (cutField 2 ':')))

def colorLines (codecfile : List Line) (hexnode pin : Line) : List Line :=
  (grepAfter 2 pin (grepAfter 8 ("Node ".toList ++ hexnode) codecfile)).filter
    (contains "Color".toList)

/-- One iteration of the loop over the dump: the node of the last heading, and the pins so far. -/
def readLine (codecfile : List Line) (s : Line × List VerbPin) (line : Line) : Line × List VerbPin :=
  let line := echo line
  let chknode := if contains "Node 0x".toList line then cutField 2 ' ' line else []
  let hexnode := if chknode ≠ [] then chknode else s.1
  let pin := if contains "Pin Default".toList line then cutField 1 ':' (cutField 2 'x' line) else []
  if pin = [] then (hexnode, s.2)
  else
    let colors := colorLines codecfile hexnode pin
    let p : VerbPin :=
      { desc := cutField 2 ']' line
        jack := unlines (colors.map fun line => cutField 1 ',' (cutField 2 '=' line))
        color := unlines (colors.map (cutField 3 '='))
        hexnode := hexnode
        pin := pin }
    (hexnode, if p.blacklisted then s.2 else s.2 ++ [p])

/-- The pins of the dump that are of use. -/
def readPins (codecfile : List Line) : List VerbPin :=
  (codecfile.foldl (readLine codecfile) ([], [])).2

/-! ### The verbs of a pin -/

def VerbPin.vnode (p : VerbPin) : Line := cutField 2 'x' p.hexnode

variable (codecaddr : Line)

/-- `verbc`: the default association and the sequence. -/
def verbc (p : VerbPin) : Line := codecaddr ++ p.vnode ++ "71c".toList ++ cutChars 7 8 p.pin

/-- `verbd`: color and misc. -/
def verbd (p : VerbPin) : Line := codecaddr ++ p.vnode ++ "71d".toList ++ cutChars 5 6 p.pin

/-- `verbe`: default device and connection type. -/
def verbe (p : VerbPin) : Line := codecaddr ++ p.vnode ++ "71e".toList ++ cutChars 3 4 p.pin

/-- `verbf`: port connectivity and location. -/
def verbf (p : VerbPin) : Line := codecaddr ++ p.vnode ++ "71f".toList ++ cutChars 1 2 p.pin

/-! ### Corrections -/

/-- `assoc`: the association of a verb, where one counts for zero. -/
def assocOf (verbc : Line) : Line :=
  let assoc := cutChars 7 7 verbc
  if assoc = ['0'] then ['1'] else assoc

def unusedAssocs (assocs : List Line) : List Line :=
  ((List.range 14).map fun i => [HexWord.digitChar (i + 1)]).filter fun ihex =>
    !containsWord ihex assocs

/-- The loop over the associations.  `done` are those of the pins before, `next` counts the unused
ones that were given away; when they run out, a pin is left without one. -/
def correctAssocs (unused : List Line) : (done : List Line) → (next : ℕ) → List (Line × Line) →
    List Line
  | _, _, [] => []
  | done, next, (verbc, assoc) :: rest =>
      let assoclist := done ++ rest.map Prod.snd
      if containsWord assoc assoclist then
        if containsWord assoc done then
          let new := (unused[next]?).getD []
          (cutChars 1 6 verbc ++ new ++ ['0']) ::
            correctAssocs unused (done ++ [new]) (next + 1) rest
        else (cutChars 1 7 verbc ++ ['0']) :: correctAssocs unused (done ++ [assoc]) next rest
      else (cutChars 1 7 verbc ++ ['0']) :: correctAssocs unused (done ++ [assoc]) next rest

def nverbcs (verbcs : List Line) : List Line :=
  let assocs := verbcs.map assocOf
  correctAssocs (unusedAssocs assocs) [] 0 (verbcs.zip assocs)

def nverbd (verbd : Line) : Line := cutChars 1 7 verbd ++ ['0']

def nverbf (verbf : Line) : Line :=
  let misc := (cutChars 8 8 verbf).map Char.toUpper
  let misc := if misc = ['2'] then ['1'] else misc
  let misc := if misc ≠ ['1'] then ['0'] else misc
  cutChars 1 7 verbf ++ misc

def oneLine (pins : List VerbPin) : List Char :=
  (pins.zip (nverbcs (pins.map (verbc codecaddr)))).flatMap fun (p, nverbc) =>
    [' '] ++ nverbc ++ [' '] ++ nverbd (verbd codecaddr p) ++ [' '] ++ verbe codecaddr p ++ [' ']
      ++ nverbf (verbf codecaddr p)

/-- `verbit.sh`: the modified verbs of a dump, if it is one. -/
def verbit (codecfile : List Line) : Option (List Char) :=
  if isCodecDump codecfile then some (oneLine (codecAddress codecfile) (readPins codecfile))
  else none

end AppleALC.HdaTools
