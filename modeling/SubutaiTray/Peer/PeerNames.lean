import SubutaiTray.Peer.Controller

/-!
The names of the peers, as keys of `machine_peers_table`.

A name is what follows `subutai-peer_` in the last part of a path, or that part itself.
Parts of different parents are not told apart, nor is a part with the prefix from the
same part without it.
-/
namespace SubutaiTray.Peer

def peerPrefix : QString := "subutai-peer_".toList

section parseName
variable {name rest : QString}

/-- The scan ends at the first underscore. -/
theorem exists_of_loop_ne_nil {before s : QString} (h : parseName.loop before s ≠ []) :
    ∃ scanned, before ++ scanned = "subutai-peer".toList ∧
      s = scanned ++ '_' :: parseName.loop before s := by
  induction s generalizing before with
  | nil => exact absurd rfl h
  | cons c s ih =>
      rw [parseName.loop] at h ⊢
      by_cases hc : c = '_'
      · rw [if_pos hc] at h ⊢
        by_cases hbefore : before = "subutai-peer".toList
        · rw [if_pos hbefore]
          exact ⟨[], by rw [List.append_nil, hbefore], by rw [hc]; rfl⟩
        · rw [if_neg hbefore] at h
          exact absurd rfl h
      · rw [if_neg hc] at h ⊢
        obtain ⟨scanned, hscanned, hs⟩ := ih h
        refine ⟨c :: scanned, ?_, ?_⟩
        · rw [← hscanned, List.append_assoc]
          rfl
        · rw [List.cons_append, ← hs]

theorem parseName_of_plain (h : ¬ "subutai-peer".toList <:+: name) : parseName name = name := by
  unfold parseName
  rw [if_neg h]

theorem infix_peerPrefix_append (rest : QString) :
    "subutai-peer".toList <:+: peerPrefix ++ rest :=
  ⟨[], '_' :: rest, rfl⟩

theorem parseName_peerPrefix (rest : QString) : parseName (peerPrefix ++ rest) = rest := by
  unfold parseName
  rw [if_pos (infix_peerPrefix_append rest)]
  rfl

/-- The names that give a peer a name. -/
theorem parseName_cases (h : parseName name ≠ []) :
    (¬ "subutai-peer".toList <:+: name ∧ parseName name = name) ∨
      name = peerPrefix ++ parseName name := by
  by_cases hinside : "subutai-peer".toList <:+: name
  · have hloop : parseName name = parseName.loop [] name := by
      unfold parseName
      rw [if_pos hinside]
    rw [hloop] at h ⊢
    obtain ⟨scanned, hscanned, hname⟩ := exists_of_loop_ne_nil h
    rw [List.nil_append] at hscanned
    rw [hscanned] at hname
    exact Or.inr hname
  · exact Or.inl ⟨hinside, parseName_of_plain hinside⟩

end parseName

/-- The one folder is named as the other, with the prefix before it. -/
def Folder.Prefixes (f g : Folder) : Prop :=
  f.fileName = peerPrefix ++ g.fileName ∧ ¬ "subutai-peer".toList <:+: g.fileName

/-- Folders that are given one name. -/
def Folder.Clash (f g : Folder) : Prop :=
  f.fileName = g.fileName ∨ f.Prefixes g ∨ g.Prefixes f

instance (f g : Folder) : Decidable (f.Clash g) :=
  inferInstanceAs (Decidable (_ ∨ (_ ∧ _) ∨ (_ ∧ _)))

theorem Folder.Prefixes.parseName_eq {f g : Folder} (h : f.Prefixes g) :
    parseName f.fileName = parseName g.fileName := by
  rw [h.1, parseName_peerPrefix, parseName_of_plain h.2]

theorem Folder.clash_iff {f g : Folder} (hf : f.isPeer) (hg : g.isPeer) :
    f.Clash g ↔ parseName f.fileName = parseName g.fileName := by
  constructor
  · rintro (hsame | hprefix | hprefix)
    · rw [hsame]
    · exact hprefix.parseName_eq
    · exact hprefix.parseName_eq.symm
  · intro heq
    have hne {folder : Folder} (h : folder.isPeer) : parseName folder.fileName ≠ [] := by
      simp only [Folder.isPeer, Bool.and_eq_true, decide_eq_true_eq] at h
      exact h.2
    rcases parseName_cases (hne hf) with ⟨hfplain, hfname⟩ | hfname
    · rcases parseName_cases (hne hg) with ⟨hgplain, hgname⟩ | hgname
      · rw [hfname, hgname] at heq
        exact Or.inl heq
      · rw [← heq, hfname] at hgname
        exact Or.inr (Or.inr ⟨hgname, hfplain⟩)
    · rcases parseName_cases (hne hg) with ⟨hgplain, hgname⟩ | hgname
      · rw [heq, hgname] at hfname
        exact Or.inr (Or.inl ⟨hfname, hgplain⟩)
      · rw [heq, ← hgname] at hfname
        exact Or.inl hfname

/-- What `search_local` finds, no directory twice. -/
structure SearchResult where
  globalStatus : List Folder
  peersDir : List Folder
  distinct : (PeerController.foundIn (PeerController.foldersOf globalStatus peersDir)).Nodup

/-- The folders whose peers are asked for. -/
def SearchResult.peers (result : SearchResult) : List Folder :=
  (PeerController.foldersOf result.globalStatus result.peersDir).filter Folder.isPeer

/-- An answer to a question about the peer of a folder. -/
structure Answer where
  folder : Folder
  info : PeerInfo
  output : QString

def PeerWindow.recordAnswers (answers : List Answer) (window : PeerWindow) : PeerWindow :=
  answers.foldl (fun window answer =>
    window.recordPeer answer.info answer.folder.question.name answer.folder.question.dir
      answer.output) window

/-- The peers have names of their own, and in every window, after answers about them in any
order, each one is found under its name. -/
structure NamesRight (result : SearchResult) : Prop where
  distinct : (result.peers.map fun folder => folder.question.name).Nodup
  kept : ∀ (window : PeerWindow) (answers : List Answer),
    (∀ answer ∈ answers, answer.folder ∈ result.peers) → ∀ answer ∈ answers,
      ((window.recordAnswers answers).machinePeersTable[answer.folder.question.name]?).map
        CLocalPeer.dir = some answer.folder.absolutePath

theorem PeerWindow.dir_recordAnswers (window : PeerWindow) {answers : List Answer}
    (named : ∀ a ∈ answers, ∀ b ∈ answers, a.folder.question.name = b.folder.question.name →
      a.folder = b.folder) :
    ∀ answer ∈ answers,
      ((window.recordAnswers answers).machinePeersTable[answer.folder.question.name]?).map
        CLocalPeer.dir = some answer.folder.absolutePath := by
  induction answers using List.reverseRecOn with
  | nil => exact fun answer hanswer => absurd hanswer List.not_mem_nil
  | append_singleton answers last ih =>
      intro answer hanswer
      have hlast : last ∈ answers ++ [last] := by simp
      rw [recordAnswers, List.foldl_concat, machinePeersTable_recordPeer]
      by_cases hname : last.folder.question.name = answer.folder.question.name
      · have hfolder := named last hlast answer hanswer hname
        rw [hname, Std.ExtTreeMap.getElem?_insert_self, Option.map_some,
          (identity_updaterPeer _ _ _ _ _).2.1, hfolder]
        rfl
      · rw [Std.ExtTreeMap.getElem?_insert,
          if_neg fun heq => hname (Std.LawfulEqCmp.eq_of_compare heq)]
        have hbefore : answer ∈ answers := by
          cases List.mem_append.mp hanswer with
          | inl hbefore => exact hbefore
          | inr hsame => exact absurd (by rw [List.mem_singleton.mp hsame]) hname
        refine ih ?_ answer hbefore
        intro a ha b hb
        exact named a (List.mem_append_left _ ha) b (List.mem_append_left _ hb)

/-- No entry overwrites another exactly when the folders found end in different parts, and
none in what another ends in with the prefix before it. -/
theorem namesRight_iff (result : SearchResult) :
    NamesRight result ↔ result.peers.Pairwise fun f g => ¬ f.Clash g := by
  have hpeer : ∀ folder ∈ result.peers, folder.isPeer := by
    intro folder hfolder
    exact (List.mem_filter.mp hfolder).2
  have hnames : (result.peers.map fun folder => folder.question.name).Nodup ↔
      result.peers.Pairwise fun f g => ¬ f.Clash g := by
    rw [List.Nodup, List.pairwise_map]
    refine List.Pairwise.iff_of_mem ?_
    intro f g hf hg
    rw [Folder.clash_iff (hpeer f hf) (hpeer g hg)]
    rfl
  constructor
  · intro h
    exact hnames.mp h.distinct
  · intro h
    have hdistinct := hnames.mpr h
    refine ⟨hdistinct, ?_⟩
    intro window answers hanswers
    refine window.dir_recordAnswers ?_
    intro a ha b hb hname
    exact List.inj_on_of_nodup_map hdistinct (hanswers a ha) (hanswers b hb) hname

/-- Peers of two base directories, as the global status has them. -/
def twoBases : SearchResult where
  globalStatus :=
    [⟨"/old/subutai-peer_web".toList, true, true⟩, ⟨"/new/subutai-peer_web".toList, true, true⟩]
  peersDir := []
  distinct := by decide

/-- Two peers are both stored as `web`. -/
theorem not_namesRight_web :
    twoBases.peers.map (fun folder => folder.question.name) = ["web".toList, "web".toList] ∧
      ¬ NamesRight twoBases := by
  have hnames : twoBases.peers.map (fun folder => folder.question.name) =
      ["web".toList, "web".toList] := by
    decide +kernel
  refine ⟨hnames, ?_⟩
  intro h
  have hdistinct := h.distinct
  rw [hnames] at hdistinct
  exact absurd hdistinct (by decide)

end SubutaiTray.Peer
