import SubutaiTray.Qt.Text
import Mathlib.Data.List.Dedup
import Mathlib.Data.List.MinMax
import Mathlib.Data.List.Sort

/-!
`QString::arg`: the place markers with the lowest number are replaced, the others
wait for the next call. A text that has been put in is scanned again by later
calls, so its own markers count from then on.
-/
namespace SubutaiTray

def digitValue (c : Char) : Option Nat := if c.isDigit then some (c.toNat - 48) else none

/-- The number that the text begins with, of at most two digits, and its length. -/
def markerDigits : QString → Option (Nat × Nat)
  | c :: c' :: _ =>
      (digitValue c).map fun d =>
        match digitValue c' with
        | some d' => (10 * d + d', 2)
        | none => (d, 1)
  | [c] => (digitValue c).map fun d => (d, 1)
  | [] => none

/-- The number of the place marker that the text begins with, and its length. With an `L` the number
would be put in as the locale writes it; a text is put in as it is. -/
def placeMarker : QString → Option (Nat × Nat)
  | '%' :: 'L' :: s => (markerDigits s).map fun marker => (marker.1, marker.2 + 2)
  | '%' :: s => (markerDigits s).map fun marker => (marker.1, marker.2 + 1)
  | _ => none

/-- The text cut into characters and place markers; the first `skip` characters
belong to a marker that is already taken. -/
def scanMarkers : Nat → QString → List (Char ⊕ (Nat × QString))
  | _, [] => []
  | skip + 1, _ :: s => scanMarkers skip s
  | 0, c :: s =>
      match placeMarker (c :: s) with
      | some (number, length) =>
          .inr (number, (c :: s).take length) :: scanMarkers (length - 1) s
      | none => .inl c :: scanMarkers 0 s

def markerNumber : Char ⊕ (Nat × QString) → Option Nat
  | .inl _ => none
  | .inr (number, _) => some number

/-- The marker numbered `lowest` becomes `a`, all else stays. -/
def fillMarker (lowest : Option Nat) (a : QString) : Char ⊕ (Nat × QString) → QString
  | .inl c => [c]
  | .inr (number, text) => if lowest = some number then a else text

def arg (s a : QString) : QString :=
  let pieces := scanMarkers 0 s
  pieces.flatMap (fillMarker (pieces.filterMap markerNumber).min? a)

/-- `QString::arg` with several texts, which are put in at once: the marker with the lowest
number becomes the first of them, and so on. -/
def multiArg (s : QString) (as : List QString) : QString :=
  let pieces := scanMarkers 0 s
  let numbers := (pieces.filterMap markerNumber).dedup.insertionSort (· ≤ ·)
  pieces.flatMap fun
    | .inl c => [c]
    | .inr (number, text) => (as[numbers.idxOf number]?).getD text

theorem scanMarkers_append {p : QString} (hp : '%' ∉ p) (s : QString) :
    scanMarkers 0 (p ++ s) = p.map Sum.inl ++ scanMarkers 0 s := by
  induction p with
  | nil => rfl
  | cons c p ih =>
      have hc : c ≠ '%' := fun h => hp (h ▸ List.mem_cons_self)
      have hnone : placeMarker (c :: (p ++ s)) = none := by
        rw [placeMarker.eq_def]
        split
        · exact absurd (by simp_all) hc
        · exact absurd (by simp_all) hc
        · rfl
      rw [List.cons_append, scanMarkers, hnone, List.map_cons, List.cons_append,
        ← ih (fun h => hp (List.mem_cons_of_mem _ h))]

/-- Text without place markers in front is left alone. -/
theorem arg_append {p : QString} (hp : '%' ∉ p) (s a : QString) :
    arg (p ++ s) a = p ++ arg s a := by
  have hnumbers : (p.map Sum.inl).filterMap markerNumber = [] := by
    rw [List.filterMap_map]
    exact List.filterMap_eq_nil_iff.mpr fun c _ => rfl
  have hfill (lowest : Option Nat) : (p.map Sum.inl).flatMap (fillMarker lowest a) = p := by
    rw [List.flatMap_map]
    exact List.flatMap_singleton' p
  rw [arg, arg, scanMarkers_append hp, List.filterMap_append, hnumbers, List.nil_append,
    List.flatMap_append, hfill]

theorem arg_one (a : QString) : arg "%1".toList a = a := List.append_nil a

/-! ## The pieces of a text -/

/-- The numbers of the place markers. -/
def markers (s : QString) : List Nat := (scanMarkers 0 s).filterMap markerNumber

/-- The text with the markers of the number `lowest` replaced. -/
def fill (lowest : Option Nat) (a s : QString) : QString :=
  (scanMarkers 0 s).flatMap (fillMarker lowest a)

theorem arg_eq_fill (s a : QString) : arg s a = fill (markers s).min? a s := rfl

/-- No place marker reaches over such a character. -/
structure Breaks (c : Char) : Prop where
  percent : c ≠ '%'
  locale : c ≠ 'L'
  digit : digitValue c = none

theorem placeMarker_of_ne {c : Char} (h : c ≠ '%') (s : QString) : placeMarker (c :: s) = none := by
  rw [placeMarker.eq_def]
  split
  · exact absurd (by simp_all) h
  · exact absurd (by simp_all) h
  · rfl

theorem placeMarker_percent {s : QString} (h : ∀ s', s ≠ 'L' :: s') :
    placeMarker ('%' :: s) = (markerDigits s).map fun marker => (marker.1, marker.2 + 1) := by
  rw [placeMarker.eq_def]
  split
  · rename_i s' heq
    exact absurd (List.cons.inj heq).2 (h s')
  · rename_i heq
    rw [(List.cons.inj heq).2]
  · rename_i hnot
    exact absurd rfl (hnot s)

variable {c : Char}

theorem markerDigits_append (hc : digitValue c = none) (p s : QString) :
    markerDigits (p ++ c :: s) = markerDigits p := by
  rcases p with _ | ⟨d, _ | ⟨d', p⟩⟩
  · cases s <;> simp [markerDigits, hc]
  · simp [markerDigits, hc]
  · rfl

theorem placeMarker_append (hc : Breaks c) (d : Char) (p s : QString) :
    placeMarker (d :: (p ++ c :: s)) = placeMarker (d :: p) := by
  by_cases hd : d = '%'
  · subst hd
    cases p with
    | nil =>
        have hnot : ∀ s', c :: s ≠ 'L' :: s' := fun s' heq => hc.locale (List.cons.inj heq).1
        rw [List.nil_append, placeMarker_percent hnot, placeMarker_percent fun s' => (List.cons_ne_nil 'L' s').symm]
        exact congrArg (Option.map _) (markerDigits_append hc.digit [] s)
    | cons e p =>
        by_cases he : e = 'L'
        · subst he
          exact congrArg (Option.map _) (markerDigits_append hc.digit p s)
        · have hnot (s' : QString) : ∀ s'', e :: s' ≠ 'L' :: s'' :=
            fun s'' heq => he (List.cons.inj heq).1
          rw [List.cons_append, placeMarker_percent (hnot _), placeMarker_percent (hnot _),
            ← List.cons_append, markerDigits_append hc.digit]
  · rw [placeMarker_of_ne hd, placeMarker_of_ne hd]

theorem markerDigits_length {s : QString} {marker : Nat × Nat} (h : markerDigits s = some marker) :
    0 < marker.2 ∧ marker.2 ≤ s.length := by
  rcases s with _ | ⟨d, _ | ⟨d', s⟩⟩
  · exact absurd h.symm (Option.some_ne_none marker)
  · obtain ⟨n, -, rfl⟩ := Option.map_eq_some_iff.mp h
    exact ⟨Nat.one_pos, Nat.le_refl 1⟩
  · obtain ⟨n, -, rfl⟩ := Option.map_eq_some_iff.mp h
    rw [List.length_cons, List.length_cons]
    split
    · exact ⟨Nat.two_pos, by omega⟩
    · exact ⟨Nat.one_pos, by omega⟩

/-- A place marker begins with a percent sign, and is not longer than the text. -/
theorem placeMarker_eq_some {d : Char} {s : QString} {marker : Nat × Nat}
    (h : placeMarker (d :: s) = some marker) : d = '%' ∧ 0 < marker.2 ∧ marker.2 ≤ s.length + 1 := by
  by_cases hd : d = '%'
  · subst hd
    refine ⟨rfl, ?_⟩
    by_cases hl : ∃ s', s = 'L' :: s'
    · obtain ⟨s', rfl⟩ := hl
      obtain ⟨digits, hdigits, rfl⟩ := Option.map_eq_some_iff.mp h
      have hlen := markerDigits_length hdigits
      rw [List.length_cons]
      exact ⟨Nat.succ_pos _, by omega⟩
    · rw [placeMarker_percent (not_exists.mp hl)] at h
      obtain ⟨digits, hdigits, rfl⟩ := Option.map_eq_some_iff.mp h
      have hlen := markerDigits_length hdigits
      exact ⟨Nat.succ_pos _, by omega⟩
  · rw [placeMarker_of_ne hd] at h
    exact absurd h.symm (Option.some_ne_none marker)

theorem scanMarkers_append_breaks (hc : Breaks c) {k : Nat} {p : QString} (hk : k ≤ p.length)
    (s : QString) :
    scanMarkers k (p ++ c :: s) = scanMarkers k p ++ .inl c :: scanMarkers 0 s := by
  induction p generalizing k with
  | nil =>
      obtain rfl := Nat.le_zero.mp hk
      simp [scanMarkers, placeMarker_of_ne hc.percent]
  | cons d p ih =>
      cases k with
      | succ k => exact ih (Nat.le_of_succ_le_succ hk)
      | zero =>
          rw [List.cons_append, scanMarkers, scanMarkers, placeMarker_append hc]
          cases hmarker : placeMarker (d :: p) with
          | none =>
              dsimp only
              rw [ih (Nat.zero_le _), List.cons_append]
          | some marker =>
              have hlen := (placeMarker_eq_some hmarker).2
              have htake : (d :: (p ++ c :: s)).take marker.2 = (d :: p).take marker.2 :=
                List.take_append_of_le_length (show marker.2 ≤ (d :: p).length from hlen.2)
              dsimp only
              rw [ih (by omega), htake, List.cons_append]

theorem markers_append_breaks (hc : Breaks c) (p s : QString) :
    markers (p ++ c :: s) = markers p ++ markers s := by
  rw [markers, scanMarkers_append_breaks hc (Nat.zero_le _), List.filterMap_append]
  rfl

theorem fill_append_breaks (hc : Breaks c) (lowest : Option Nat) (a p s : QString) :
    fill lowest a (p ++ c :: s) = fill lowest a p ++ c :: fill lowest a s := by
  rw [fill, scanMarkers_append_breaks hc (Nat.zero_le _), List.flatMap_append]
  rfl

/-- The pieces make up the text. -/
theorem flatMap_scanMarkers (a : QString) {k : Nat} {s : QString} (hk : k ≤ s.length) :
    (scanMarkers k s).flatMap (fillMarker none a) = s.drop k := by
  induction s generalizing k with
  | nil => cases k <;> rfl
  | cons d s ih =>
      cases k with
      | succ k => exact ih (Nat.le_of_succ_le_succ hk)
      | zero =>
          rw [scanMarkers]
          cases hmarker : placeMarker (d :: s) with
          | none =>
              dsimp only
              rw [List.flatMap_cons, ih (Nat.zero_le _)]
              rfl
          | some marker =>
              obtain ⟨n, len⟩ := marker
              have hlen := (placeMarker_eq_some hmarker).2
              dsimp only at hlen ⊢
              rw [List.flatMap_cons, ih (by omega)]
              obtain ⟨m, rfl⟩ : ∃ m, len = m + 1 := ⟨len - 1, by omega⟩
              exact List.take_append_drop (m + 1) (d :: s)

/-- A number that no marker has changes nothing. -/
theorem fill_of_notMem {lowest : Option Nat} (a : QString) {s : QString}
    (h : ∀ number ∈ markers s, lowest ≠ some number) : fill lowest a s = s := by
  have hnone := flatMap_scanMarkers a (Nat.zero_le s.length)
  rw [List.drop_zero] at hnone
  refine (List.flatMap_congr ?_).trans hnone
  intro piece hpiece
  rcases piece with d | ⟨number, text⟩
  · rfl
  · have hne := h number (List.mem_filterMap.mpr ⟨.inr (number, text), hpiece, rfl⟩)
    rw [fillMarker, fillMarker, if_neg hne, if_neg (Option.some_ne_none number).symm]

theorem percent_mem_of_piece {k n : Nat} {s t : QString} (h : .inr (n, t) ∈ scanMarkers k s) :
    '%' ∈ t := by
  induction s generalizing k with
  | nil => cases k <;> exact absurd h List.not_mem_nil
  | cons d s ih =>
      cases k with
      | succ k => exact ih h
      | zero =>
          rw [scanMarkers] at h
          cases hmarker : placeMarker (d :: s) with
          | none =>
              rw [hmarker] at h
              exact ih ((List.mem_cons.mp h).resolve_left Sum.inr_ne_inl)
          | some marker =>
              obtain ⟨number, len⟩ := marker
              obtain ⟨hd, hpos, -⟩ := placeMarker_eq_some hmarker
              rw [hmarker] at h
              rcases List.mem_cons.mp h with hhead | htail
              · obtain ⟨m, rfl⟩ : ∃ m, len = m + 1 := ⟨len - 1, by dsimp only at hpos; omega⟩
                rw [(Prod.mk.inj (Sum.inr.inj hhead)).2, List.take_succ_cons, hd]
                exact List.mem_cons_self
              · exact ih htail

/-- Markers that are taken out take their percent signs with them. -/
theorem count_fill_lt {number : Nat} {s : QString} (h : number ∈ markers s) :
    (fill (some number) [] s).count '%' < s.count '%' := by
  have hpieces (pieces : List (Char ⊕ (Nat × QString)))
      (hpercent : ∀ n t, .inr (n, t) ∈ pieces → '%' ∈ t) :
      (pieces.flatMap (fillMarker (some number) [])).count '%' ≤
          (pieces.flatMap (fillMarker none [])).count '%' ∧
        (number ∈ pieces.filterMap markerNumber →
          (pieces.flatMap (fillMarker (some number) [])).count '%' <
            (pieces.flatMap (fillMarker none [])).count '%') := by
    induction pieces with
    | nil => exact ⟨Nat.le_refl _, fun hmem => absurd hmem List.not_mem_nil⟩
    | cons piece pieces ih =>
        have hrest := ih fun n t hmem => hpercent n t (List.mem_cons_of_mem _ hmem)
        simp only [List.flatMap_cons, List.count_append]
        rcases piece with d | ⟨n, t⟩
        · exact ⟨Nat.add_le_add_left hrest.1 _, fun hmem => Nat.add_lt_add_left (hrest.2 hmem) _⟩
        · have ht : 0 < t.count '%' := List.count_pos_iff.mpr (hpercent n t List.mem_cons_self)
          rw [fillMarker, fillMarker, if_neg (Option.some_ne_none n).symm]
          by_cases hn : some number = some n
          · rw [if_pos hn, List.count_nil]
            exact ⟨by omega, fun _ => by omega⟩
          · rw [if_neg hn]
            refine ⟨by omega, fun hmem => ?_⟩
            have htail := (List.mem_cons.mp hmem).resolve_left fun heq => hn (congrArg some heq)
            have := hrest.2 htail
            omega
  have hjoined := flatMap_scanMarkers [] (Nat.zero_le s.length)
  rw [List.drop_zero] at hjoined
  have hcount := (hpieces (scanMarkers 0 s) fun n t hmem => percent_mem_of_piece hmem).2 h
  rw [hjoined] at hcount
  exact hcount

end SubutaiTray
