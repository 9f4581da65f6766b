import SubutaiTray.Library.CyclicScan
import SubutaiTray.Peer.PeerTables

/-!
The fingerprint in the identifier of a device (`CCommons::GetFingerprintFromUid`).

The identifier comes from the network and may have any length, and it is read with an index of 16
bits. Behind the last position that the index can take the reading goes on at the first one.
-/
namespace SubutaiTray.Peer

/-- The text between the first `uid:` and the next colon or the end. -/
def fingerprintOf (uid : QString) : QString :=
  match P2P.indexOf "uid:".toList uid with
  | none => []
  | some found => (uid.drop (found + 4)).takeWhile (· ≠ ':')

/-- The fingerprint is returned. -/
def FingerprintRight (uid : QString) : Prop :=
  getFingerprintFromUid uid = some (fingerprintOf uid)

/-- There is a colon at the index, or the text is over. -/
def endsReading (uid : QString) (index : Nat) : Bool := (uid[index]?).all (· = ':')

/-- Without `uid:` nothing stands at the index 3, where the reading then begins. With it, what the
index of 16 bits reaches is what stands behind `uid:`. -/
def Reachable (uid : QString) : Prop :=
  match P2P.indexOf "uid:".toList uid with
  | none => "uid".toList <:+: uid → endsReading uid 3 = true
  | some found =>
      (∀ j < (fingerprintOf uid).length, uid[(found + 4 + j) % 65536]? = uid[found + 4 + j]?) ∧
        endsReading uid ((found + 4 + (fingerprintOf uid).length) % 65536) = true

variable {uid : QString}

theorem endsReading_eq_false_iff (uid : QString) (index : Nat) :
    endsReading uid index = false ↔ ∃ c, uid[index]? = some c ∧ c ≠ ':' := by
  rw [endsReading]
  cases uid[index]? with
  | none => simp
  | some c => simp

theorem toNat_succ (index : UInt16) : (index + 1).toNat = (index.toNat + 1) % 65536 := by
  rw [UInt16.toNat_add, UInt16.toNat_one]

theorem readToColon_eq (uid : QString) (fuel : Nat) (index : UInt16) (res : QString) :
    readToColon uid fuel index res =
      (CyclicScan.scan 65536 (endsReading uid) fuel index.toNat).map fun k =>
        res ++ (List.range k).filterMap fun j => uid[(index.toNat + j) % 65536]? := by
  induction fuel generalizing index res with
  | zero => rfl
  | succ fuel ih =>
      have hindex : index.toNat % 65536 = index.toNat := Nat.mod_eq_of_lt index.toNat_lt
      rw [readToColon, CyclicScan.scan, endsReading]
      cases hat : uid[index.toNat]? with
      | none => simp
      | some c =>
          by_cases hc : c = ':'
          · simp [hc]
          · have hshift (j : Nat) :
                ((index.toNat + 1) % 65536 + j) % 65536 = (index.toNat + (j + 1)) % 65536 := by omega
            simp only [Option.all_some, hc, decide_false, Bool.false_eq_true, if_false]
            rw [ih, toNat_succ, Option.map_map]
            congr 1
            funext k
            simp [List.range_succ_eq_map, hindex, hat, hshift, List.filterMap_map]

/-- If the reading does not end in one turn, it never ends. -/
theorem readToColon_eq_none {fuel : Nat} (hfuel : 65536 ≤ fuel) {index : UInt16} {res : QString}
    (h : readToColon uid fuel index res = none) (fuel' : Nat) :
    readToColon uid fuel' index res = none := by
  rw [readToColon_eq, Option.map_eq_none_iff] at h ⊢
  have hnever := (CyclicScan.scan_eq_none_iff index.toNat_lt hfuel).mp h
  rw [Option.eq_none_iff_forall_ne_some]
  intro k hk
  rw [CyclicScan.scan_eq_some_iff fuel' k index.toNat_lt,
    hnever _ (Nat.mod_lt _ (by decide))] at hk
  exact Bool.false_ne_true hk.2.1

/-- What was read is the text from the index on, up to a colon or the end. -/
theorem text_of_readToColon {fuel : Nat} {index : UInt16} {text : QString}
    (h : readToColon uid fuel index [] = some text) :
    ':' ∉ text ∧ (∀ j < text.length, uid[(index.toNat + j) % 65536]? = text[j]?) ∧
      endsReading uid ((index.toNat + text.length) % 65536) = true := by
  rw [readToColon_eq, Option.map_eq_some_iff] at h
  simp only [List.nil_append] at h
  obtain ⟨k, hscan, htext⟩ := h
  rw [CyclicScan.scan_eq_some_iff fuel k index.toNat_lt] at hscan
  simp only [endsReading_eq_false_iff] at hscan
  have hsome : ∀ j < k, (uid[(index.toNat + j) % 65536]?).isSome = true := by
    intro j hj
    obtain ⟨c, hc, -⟩ := hscan.2.2 j hj
    rw [hc]
    rfl
  rw [CyclicScan.filterMap_range_eq_iff hsome] at htext
  rw [htext.1]
  refine ⟨?_, htext.2, hscan.2.1⟩
  intro hcolon
  obtain ⟨j, hj⟩ := List.getElem?_of_mem hcolon
  obtain ⟨hlt, -⟩ := List.getElem?_eq_some_iff.mp hj
  obtain ⟨c, hc, hne⟩ := hscan.2.2 j (by omega)
  rw [htext.2 j (by omega), hj, Option.some.injEq] at hc
  exact hne hc.symm

theorem endsReading_of_text {index : UInt16} {text : QString} (hcolon : ':' ∉ text)
    (hread : ∀ j < text.length, uid[(index.toNat + j) % 65536]? = text[j]?) :
    ∀ j < text.length, endsReading uid ((index.toNat + j) % 65536) = false := by
  intro j hj
  rw [endsReading_eq_false_iff, hread j hj]
  refine ⟨text[j], List.getElem?_eq_getElem hj, fun heq => hcolon ?_⟩
  rw [← heq]
  exact List.getElem_mem hj

/-- A text that ends is shorter than a turn: a whole turn would come to the end once more. -/
theorem length_lt_of_ends {index : UInt16} {text : QString}
    (hpassed : ∀ j < text.length, endsReading uid ((index.toNat + j) % 65536) = false)
    (hend : endsReading uid ((index.toNat + text.length) % 65536) = true) :
    text.length < 65536 := by
  by_contra hlong
  have hback := hpassed (text.length - 65536) (by omega)
  have hsame : (index.toNat + (text.length - 65536)) % 65536 =
      (index.toNat + text.length) % 65536 := by omega
  rw [hsame, hend] at hback
  exact Bool.false_ne_true hback.symm

theorem readToColon_eq_some_iff {fuel : Nat} (hfuel : 65536 ≤ fuel) (index : UInt16)
    (text : QString) :
    readToColon uid fuel index [] = some text ↔
      ':' ∉ text ∧ (∀ j < text.length, uid[(index.toNat + j) % 65536]? = text[j]?) ∧
        endsReading uid ((index.toNat + text.length) % 65536) = true := by
  constructor
  · exact text_of_readToColon
  · rintro ⟨hcolon, hread, hend⟩
    have hpassed := endsReading_of_text hcolon hread
    have hturn := length_lt_of_ends hpassed hend
    rw [readToColon_eq, Option.map_eq_some_iff]
    refine ⟨text.length, ?_, ?_⟩
    · rw [CyclicScan.scan_eq_some_iff fuel _ index.toNat_lt]
      exact ⟨by omega, hend, hpassed⟩
    · rw [List.nil_append, CyclicScan.filterMap_range_eq_iff]
      · exact ⟨rfl, hread⟩
      · intro j hj
        rw [hread j hj, List.getElem?_eq_getElem hj]
        rfl

/-! ## Where the reading begins -/

/-- `-1 + 4` -/
theorem toNat_start_of_none : (UInt16.ofInt (-1 + 4)).toNat = 3 := rfl

theorem toNat_start (found : Nat) :
    (UInt16.ofInt (Int.ofNat found + 4)).toNat = (found + 4) % 65536 := by
  have hcast : (Int.ofNat found + 4) % 2 ^ 16 = ((found + 4) % 65536 : Nat) := by
    rw [Int.natCast_emod]
    rfl
  rw [UInt16.ofInt, hcast, Int.toNat_natCast, UInt16.toNat_ofNat']
  exact Nat.mod_mod _ _

theorem infix_of_indexOf {found : Nat} (h : P2P.indexOf "uid:".toList uid = some found) :
    "uid".toList <:+: uid := by
  have hmark : "uid:".toList <:+: uid := by
    rw [← P2P.indexOf_isSome_iff, h]
    rfl
  exact List.IsInfix.trans ⟨[], [':'], rfl⟩ hmark

theorem getFingerprintFromUid_of_found {found : Nat}
    (h : P2P.indexOf "uid:".toList uid = some found) :
    getFingerprintFromUid uid = readToColon uid (2 ^ 16 + 1) (UInt16.ofInt (Int.ofNat found + 4)) [] := by
  have hsome := (P2P.indexOf_isSome_iff _ _).mpr (infix_of_indexOf h)
  rw [getFingerprintFromUid, if_neg (Option.isSome_iff_ne_none.mp hsome), h]
  rfl

theorem colon_notMem_fingerprintOf (uid : QString) : ':' ∉ fingerprintOf uid := by
  rw [fingerprintOf]
  split
  · exact List.not_mem_nil
  · intro hmem
    simpa using List.mem_takeWhile_imp hmem

theorem getElem?_fingerprintOf {found : Nat} (h : P2P.indexOf "uid:".toList uid = some found) {j : Nat}
    (hj : j < (fingerprintOf uid).length) : (fingerprintOf uid)[j]? = uid[found + 4 + j]? := by
  have hfingerprint : fingerprintOf uid = (uid.drop (found + 4)).takeWhile (· ≠ ':') := by
    rw [fingerprintOf, h]
  rw [hfingerprint] at hj ⊢
  have hprefix := List.takeWhile_prefix (l := uid.drop (found + 4)) fun c => decide (c ≠ ':')
  have hlt := Nat.lt_of_lt_of_le hj hprefix.length_le
  rw [List.getElem?_eq_getElem hj, hprefix.getElem hj, ← List.getElem?_eq_getElem hlt,
    List.getElem?_drop]

end SubutaiTray.Peer
