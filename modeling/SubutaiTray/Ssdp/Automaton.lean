import Mathlib.Logic.Function.Basic

/-!
The pattern automaton of the SSDP controller (`CSsdpController::init`,
`add_string`, `go`, `get_link`, `nearest`).

The automaton is one growing vector of vertices. Vertex numbers are kept as
signed integers because `-1` is a stored value in the source: it stands for a
link that has not been computed as well as for a nearest leaf that does not
exist. Reading a vertex outside the vector is undefined in the source and `none`
here. `go` and `get_link` call each other through the caches they fill, so both
take fuel; that the fuel suffices is a theorem, not part of the definition.
-/
namespace SubutaiTray.Ssdp

abbrev Bytes := List Int8

inductive InterestedField where
  | ifeLocation
  | ifeNt
  | ifeNts
  | ifeUsn
  | ifeSt
  | ifeNothing
  deriving DecidableEq, Repr

def notInitialized : Int := -1

/-- `vertex_t`. The string index `si` is left unset by the constructor. -/
structure Vertex where
  leaf : Bool := false
  parent : Int := notInitialized
  pCh : Int := notInitialized
  link : Int := notInitialized
  nl : Int := notInitialized
  si : Option Nat := none
  ife : InterestedField := .ifeNothing
  next : Int8 → Option Int := fun _ => none
  go : Int8 → Option Int := fun _ => none

def Vertex.blank : Vertex := {}

abbrev Dma := List Vertex

def vertexAt (dma : Dma) (v : Int) : Option Vertex :=
  if v < 0 then none else dma[v.toNat]?

def modifyVertex (dma : Dma) (v : Int) (f : Vertex → Vertex) : Dma :=
  dma.modify v.toNat f

def Vertex.setNext (c : Int8) (u : Int) (x : Vertex) : Vertex :=
  { x with next := Function.update x.next c (some u) }

def Vertex.setGo (c : Int8) (u : Int) (x : Vertex) : Vertex :=
  { x with go := Function.update x.go c (some u) }

def Vertex.setLink (u : Int) (x : Vertex) : Vertex := { x with link := u }

def Vertex.setNl (u : Int) (x : Vertex) : Vertex := { x with nl := u }

def Vertex.setLeaf (si : Nat) (ife : InterestedField) (x : Vertex) : Vertex :=
  { x with leaf := true, si := some si, ife := ife }

def init (dma : Dma) : Dma :=
  dma ++ [{ parent := 0, link := 0 }]

/-- The loop of `add_string`: the vertex reached and the vector grown so far. -/
def addStringLoop : Bytes → Int → Int → Dma → Option (Int × Dma)
  | [], v, _, dma => some (v, dma)
  | c :: str, v, sz, dma => do
      let vertex ← vertexAt dma v
      match vertex.next c with
      | some u => addStringLoop str u sz dma
      | none =>
          addStringLoop str sz (sz + 1)
            (modifyVertex dma v (Vertex.setNext c sz) ++ [{ parent := v, pCh := c.toInt }])

def addString (str : Bytes) (si : Nat) (ife : InterestedField) (dma : Dma) : Option Dma := do
  let (v, dma) ← addStringLoop str 0 dma.length dma
  let _ ← vertexAt dma v
  some (modifyVertex dma v (Vertex.setLeaf si ife))

mutual

/-- `CSsdpController::go` -/
def goFuel : Nat → Int → Int8 → Dma → Option (Int × Dma)
  | 0, _, _, _ => none
  | fuel + 1, v, c, dma => do
      let vertex ← vertexAt dma v
      match vertex.go c with
      | some u => some (u, dma)
      | none =>
          match vertex.next c with
          | some u => some (u, modifyVertex dma v (Vertex.setGo c u))
          | none =>
              if v = 0 then some (0, modifyVertex dma v (Vertex.setGo c 0))
              else do
                let (l, dma) ← getLinkFuel fuel v dma
                let (u, dma) ← goFuel fuel l c dma
                some (u, modifyVertex dma v (Vertex.setGo c u))

/-- `CSsdpController::get_link` -/
def getLinkFuel : Nat → Int → Dma → Option (Int × Dma)
  | 0, _, _ => none
  | fuel + 1, v, dma => do
      let vertex ← vertexAt dma v
      if vertex.link = notInitialized then
        if v = 0 ∨ vertex.parent = 0 then some (0, modifyVertex dma v (Vertex.setLink 0))
        else do
          let (p, dma) ← getLinkFuel fuel vertex.parent dma
          let (u, dma) ← goFuel fuel p (Int8.ofInt vertex.pCh) dma
          some (u, modifyVertex dma v (Vertex.setLink u))
      else some (vertex.link, dma)

end

/-- Deep enough for every chain of calls: each pair of nested calls shortens the
string of the vertex by one letter. -/
def callDepth (dma : Dma) : Nat := 2 * dma.length + 2

def go (v : Int) (c : Int8) (dma : Dma) : Option (Int × Dma) :=
  goFuel (callDepth dma) v c dma

def getLink (v : Int) (dma : Dma) : Option (Int × Dma) :=
  getLinkFuel (callDepth dma) v dma

/-- The `while` loop of `nearest`: the first leaf on the chain of links of `cv`,
or `-1` when the chain reaches the root. -/
def nearestLoop : Nat → Int → Dma → Option (Int × Dma)
  | 0, _, _ => none
  | fuel + 1, cv, dma => do
      let (cv, dma) ← getLink cv dma
      if cv = 0 then some (notInitialized, dma)
      else do
        let vertex ← vertexAt dma cv
        if vertex.leaf then some (cv, dma) else nearestLoop fuel cv dma

/-- `CSsdpController::nearest`. When no leaf is found the unchanged field is
returned; the calls in between write no `nl`. -/
def nearest (v : Int) (dma : Dma) : Option (Int × Dma) := do
  let vertex ← vertexAt dma v
  if vertex.nl ≠ notInitialized then some (vertex.nl, dma)
  else do
    let (cv, dma) ← nearestLoop dma.length v dma
    if cv = notInitialized then some (vertex.nl, dma)
    else some (cv, modifyVertex dma v (Vertex.setNl cv))

structure Pattern where
  str : Bytes
  si : Nat
  ife : InterestedField

/-- `init` followed by `add_string` for every pattern, in order. -/
def build (ps : List Pattern) : Option Dma :=
  ps.foldlM (fun dma p => addString p.str p.si p.ife dma) (init [])

def goFold : Bytes → Int → Dma → Option (Int × Dma)
  | [], v, dma => some (v, dma)
  | c :: w, v, dma => do
      let (u, dma) ← go v c dma
      goFold w u dma

/-- A call from outside that may fill caches. -/
inductive Call where
  | go (v : Int) (c : Int8)
  | getLink (v : Int)
  | nearest (v : Int)

def Call.vertex : Call → Int
  | .go v _ | .getLink v | .nearest v => v

def Call.run : Call → Dma → Option Dma
  | .go v c, dma => (Ssdp.go v c dma).map Prod.snd
  | .getLink v, dma => (Ssdp.getLink v dma).map Prod.snd
  | .nearest v, dma => (Ssdp.nearest v dma).map Prod.snd

def walkFrom (dma : Dma) : Bytes → Int → Option Int
  | [], v => some v
  | c :: s, v => do
      let vertex ← vertexAt dma v
      let u ← vertex.next c
      walkFrom dma s u

def walk (dma : Dma) (s : Bytes) : Option Int := walkFrom dma s 0

@[simp] theorem vertexAt_natCast (dma : Dma) (i : Nat) : vertexAt dma (i : Int) = dma[i]? := by
  simp [vertexAt, show ¬ (i : Int) < 0 by omega]

@[simp] theorem length_modifyVertex (dma : Dma) (v : Int) (f : Vertex → Vertex) :
    (modifyVertex dma v f).length = dma.length := by
  simp [modifyVertex]

theorem getElem?_modifyVertex (dma : Dma) (i j : Nat) (f : Vertex → Vertex) :
    (modifyVertex dma (i : Int) f)[j]? = (dma[j]?).map (fun x => if i = j then f x else x) := by
  simp only [modifyVertex, Int.toNat_natCast, List.getElem?_modify]
  rfl

end SubutaiTray.Ssdp
