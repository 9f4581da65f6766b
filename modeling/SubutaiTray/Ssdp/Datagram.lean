import SubutaiTray.Ssdp.Automaton

/-!
The datagram parser of the SSDP controller (`parse_ssdp_datagram`), the header
tables its automata are built from and the handlers that call it.

Indices are signed as in the source, where the outer index is stepped back by
one when a value is empty. The two inner loops run over the bytes that are left,
so that each of them is a recursion on those bytes; every other read is checked
and `none` when it is out of range.
-/
namespace SubutaiTray.Ssdp

/-- The bytes of a string literal of the source; they are all ASCII. -/
def ascii (s : String) : Bytes := s.toList.map fun c => Int8.ofNat c.toNat

inductive SsdpMsgType where
  | smtNotify
  | smtSearch
  | smtOk
  deriving DecidableEq, Repr

def ssdpStartLines : SsdpMsgType → Bytes
  | .smtNotify => ascii "NOTIFY * HTTP/1.1\r\n"
  | .smtSearch => ascii "M-SEARCH * HTTP/1.1\r\n"
  | .smtOk => ascii "HTTP/1.1 200 OK\r\n"

def interestedFieldsStrings : SsdpMsgType → List Bytes
  | .smtNotify =>
      [ascii "\r\nLOCATION:", ascii "\r\nlocation:", ascii "\r\nNT:", ascii "\r\nnt:",
        ascii "\r\nNTS:", ascii "\r\nnts:", ascii "\r\nUSN:", ascii "\r\nusn:"]
  | .smtSearch => [ascii "\r\nLOCATION:", ascii "\r\nlocation:"]
  | .smtOk =>
      [ascii "\r\nLOCATION:", ascii "\r\nlocation:", ascii "\r\nST:", ascii "\r\nst:",
        ascii "\r\nUSN:", ascii "\r\nusn:"]

def interestedFields : SsdpMsgType → List InterestedField
  | .smtNotify =>
      [.ifeLocation, .ifeLocation, .ifeNt, .ifeNt, .ifeNts, .ifeNts, .ifeUsn, .ifeUsn]
  | .smtSearch => [.ifeLocation, .ifeLocation]
  | .smtOk => [.ifeLocation, .ifeLocation, .ifeSt, .ifeSt, .ifeUsn, .ifeUsn]

def headerPatterns (t : SsdpMsgType) : List Pattern :=
  ((interestedFieldsStrings t).zip (interestedFields t)).zipIdx.map
    fun ((str, ife), fi) => { str := str, si := fi, ife := ife }

abbrev Packet := InterestedField → Option Bytes

def byteAt (dtgr : Bytes) (i : Int) : Option Int8 :=
  if i < 0 then none else dtgr[i.toNat]?

/-- `std::string(&data[k], n)` -/
def substring (dtgr : Bytes) (k n : Int) : Option Bytes :=
  if 0 ≤ k ∧ 0 ≤ n ∧ k + n ≤ dtgr.length then some ((dtgr.drop k.toNat).take n.toNat)
  else none

def cr : Int8 := 13
def lf : Int8 := 10
def space : Int8 := 32

/-- `for (; i < size - 1; ++i)` up to a CR LF, before which it steps back: the
bytes from index `i` on, and the index the loop leaves behind. -/
def valueEnd : Bytes → Int → Int
  | b :: b' :: rest, i =>
      if b = cr ∧ b' = lf then i - 1 else valueEnd (b' :: rest) (i + 1)
  | _, i => i

/-- `for (; k < i; ++k)` over spaces: the bytes from index `k` on. -/
def skipSpaces : Bytes → Int → Int → Int
  | b :: rest, k, i =>
      if k < i then (if b ≠ space then k else skipSpaces rest (k + 1) i) else k
  | [], k, _ => k

/-- The test `dma[cs].leaf || nearest(cs, dma) != NOT_INITIALIZED`. -/
def leafReached (cs : Int) (vertex : Vertex) (dma : Dma) : Option (Bool × Dma) :=
  if vertex.leaf then some (true, dma)
  else do
    let (n, dma) ← nearest cs dma
    some (decide (n ≠ notInitialized), dma)

def parseLoop (dtgr : Bytes) : Nat → Int → Int → Dma → Packet → Option (Packet × Dma)
  | 0, _, _, _, _ => none
  | fuel + 1, i, cs, dma, dctPacket =>
      if i < dtgr.length then do
        let cc ← byteAt dtgr i
        let vertex ← vertexAt dma cs
        let (hit, dma) ← leafReached cs vertex dma
        let (i, dctPacket) ←
          if hit then do
            let k := i
            let i := valueEnd (dtgr.drop i.toNat) i
            let k := skipSpaces (dtgr.drop k.toNat) k i
            let value ← substring dtgr k (i - k + 1)
            some (i, Function.update dctPacket vertex.ife (some value))
          else some (i, dctPacket)
        let (cs, dma) ← go cs cc dma
        parseLoop dtgr fuel (i + 1) cs dma dctPacket
      else some (dctPacket, dma)

/-- `CSsdpController::parse_ssdp_datagram`. Each byte is looked at at most twice. -/
def parseSsdpDatagram (dtgr : Bytes) (dma : Dma) : Option (Packet × Dma) :=
  parseLoop dtgr (2 * dtgr.length + 1) 0 0 dma (fun _ => none)

structure Controller where
  akNotifyDma : Dma
  akSearchDma : Dma
  akOkDma : Dma

def Controller.dma (c : Controller) : SsdpMsgType → Dma
  | .smtNotify => c.akNotifyDma
  | .smtSearch => c.akSearchDma
  | .smtOk => c.akOkDma

/-- One turn of the constructor's loop: `init`, `add_string` for every header of
the table, `get_link` for every vertex. -/
def initDma (t : SsdpMsgType) : Option Dma := do
  let dma ← build (headerPatterns t)
  (List.range dma.length).foldlM (fun dma (j : Nat) => (getLink j dma).map Prod.snd) dma

/-- The constructor of `CSsdpController`, as far as the automata go. -/
def Controller.new : Option Controller := do
  let notify ← initDma .smtNotify
  let search ← initDma .smtSearch
  let ok ← initDma .smtOk
  some { akNotifyDma := notify, akSearchDma := search, akOkDma := ok }

/-- `ssdp_rh_search_target_arr`, the same for every branch. -/
def ssdpRhSearchTargetArr : List Bytes :=
  [ascii "urn:subutai:management:peer:1", ascii "urn:subutai:management:peer:2",
    ascii "urn:subutai:management:peer:3", ascii "urn:subutai:management:peer:4",
    ascii "urn:subutai:management:peer:5", ascii "urn:subutai:management:peer:6"]

/-- `CSsdpController::handle_ssdp_notify`: the packet is parsed and dropped. -/
def handleSsdpNotify (dtgr : Bytes) (c : Controller) :
    Option (Option (Bytes × Bytes) × Controller) := do
  let (_, dma) ← parseSsdpDatagram dtgr c.akNotifyDma
  some (none, { c with akNotifyDma := dma })

def handleSsdpSearch (_dtgr : Bytes) (c : Controller) :
    Option (Option (Bytes × Bytes) × Controller) :=
  some (none, c)

/-- The checks of `hanvle_ssdp_ok` and the arguments of its signal `found_device`. -/
def foundDevice (dctPacket : Packet) : Option (Bytes × Bytes) := do
  let st ← dctPacket .ifeSt
  if st ∈ ssdpRhSearchTargetArr then
    let location ← dctPacket .ifeLocation
    let usn ← dctPacket .ifeUsn
    some (usn, location)
  else none

def hanvleSsdpOk (dtgr : Bytes) (c : Controller) :
    Option (Option (Bytes × Bytes) × Controller) := do
  let (dctPacket, dma) ← parseSsdpDatagram dtgr c.akOkDma
  some (foundDevice dctPacket, { c with akOkDma := dma })

/-- `CSsdpController::handle_ssdp_packet`: the first start line that fits decides;
unknown messages are ignored. -/
def handleSsdpPacket (dtgr : Bytes) (c : Controller) :
    Option (Option (Bytes × Bytes) × Controller) :=
  if ssdpStartLines .smtNotify <+: dtgr then handleSsdpNotify dtgr c
  else if ssdpStartLines .smtSearch <+: dtgr then handleSsdpSearch dtgr c
  else if ssdpStartLines .smtOk <+: dtgr then hanvleSsdpOk dtgr c
  else some (none, c)

def processPendingDatagrams (dtgrs : List Bytes) (c : Controller) : Option Controller :=
  dtgrs.foldlM (fun c dtgr => (handleSsdpPacket dtgr c).map Prod.snd) c

end SubutaiTray.Ssdp
