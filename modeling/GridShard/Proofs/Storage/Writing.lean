import GridShard.Command.Session
import GridShard.Proofs.Outcome

namespace GridShard

namespace Path

lemma splitOnAux_ne_nil (s sep : String) (b i j : String.Pos.Raw) (r : List String) :
    String.splitOnAux s sep b i j r ≠ [] := by
  fun_induction String.splitOnAux s sep b i j r <;> simp_all

lemma steps_ne_nil (text : String) : steps text ≠ [] := by
  rw [steps, String.splitOn, if_neg (by decide)]
  exact splitOnAux_ne_nil _ _ _ _ _ _

lemma steps_eq_of_splitLast {text : String} (h : asksForFolder text = false) :
    steps text = (splitLast text).2 ++ [(splitLast text).1] ∧ (splitLast text).1 ≠ "" := by
  obtain ⟨before, last, hs⟩ : ∃ before last, steps text = before ++ [last] :=
    ⟨_, _, (List.dropLast_append_getLast (steps_ne_nil text)).symm⟩
  have hlast : last ≠ "" := by
    rintro rfl
    rw [asksForFolder, hs] at h
    simp at h
  rw [splitLast, hs, List.reverse_append, List.reverse_singleton, List.singleton_append,
    List.dropWhile_cons_of_neg (by simpa using hlast)]
  exact ⟨congrArg (· ++ [last]) (List.reverse_reverse before).symm, hlast⟩

lemma child_ne_root (p : Path) (name : String) : p.child name ≠ .root := by
  rw [child, root, Ne, Path.mk.injEq]
  simp

end Path

namespace FileTree

variable {t t' : FileTree} {p q : Path} {bytes : ByteArray}

lemma canonical_of_steps {text : String} {names : List String} (hs : Path.steps text = names)
    (hz : text.contains '\x00' = false) (t : FileTree) : t.canonical text = t.walk names := by
  rw [canonical, hz, hs]
  rfl

lemma lookup_filter (entries : List (Path × FileEntry)) (h : p ≠ q) :
    (entries.filter fun e => e.1 ≠ q).lookup p = entries.lookup p := by
  induction entries with
  | nil => rfl
  | cons e entries ih =>
    obtain ⟨r, entry⟩ := e
    by_cases hr : r = q
    · subst hr
      rw [List.filter_cons_of_neg (by simp), ih, List.lookup_cons, beq_eq_false_iff_ne.2 h]
    · rw [List.filter_cons_of_pos (by simpa using hr), List.lookup_cons, List.lookup_cons, ih]

lemma find_insert (hq : q ≠ .root) (e : FileEntry) :
    FileTree.entry? (t.insert q e) p = if p = q then some e else t.entry? p := by
  unfold FileTree.entry?
  by_cases hp : p = .root
  · rw [if_pos hp, if_neg (hp ▸ hq.symm), if_pos hp]
  rw [if_neg hp, if_neg hp, insert, erase]
  by_cases hpq : p = q
  · rw [if_pos hpq, hpq, List.lookup_cons_self]
  · rw [if_neg hpq, List.lookup_cons, beq_eq_false_iff_ne.2 hpq]
    exact lookup_filter t.entries hpq

lemma isFolder_insert (hq : q ≠ .root) (h : t.isFolder q = false) :
    (t.insert q (.file bytes)).isFolder p = t.isFolder p := by
  rw [isFolder, find_insert hq]
  by_cases hpq : p = q
  · rw [if_pos hpq, hpq, h]
  · rw [if_neg hpq]
    rfl

lemma step_insert (hq : q ≠ .root) (h : t.isFolder q = false) {name : String} {r : Path}
    (hs : t.step p name = .ok r) : (t.insert q (.file bytes)).step p name = .ok r := by
  -- A step asks for the entry that it goes to only whether there is one.
  have hmono : (t.entry? (p.child name)).isSome = true →
      (FileTree.entry? (t.insert q (.file bytes)) (p.child name)).isSome = true := by
    intro hsome
    rw [find_insert hq]
    split
    · rfl
    · exact hsome
  rw [step, isFolder_insert hq h]
  rw [step] at hs
  repeat' split at hs
  all_goals cases hs
  all_goals simp_all

lemma walk_insert (hq : q ≠ .root) (h : t.isFolder q = false) {names : List String} {r : Path}
    (hw : names.foldlM t.step p = .ok r) :
    names.foldlM (t.insert q (.file bytes)).step p = .ok r := by
  induction names generalizing p with
  | nil => exact hw
  | cons name names ih =>
    rw [List.foldlM_cons] at hw ⊢
    obtain ⟨next, hn, hw⟩ := bind_eq_ok.1 hw
    rw [step_insert hq h hn]
    exact ih hw

structure Places (t : FileTree) (text : String) (folder : Path) (name : String) : Prop where
  checkText : checkText text = .ok ()
  asksForFolder : Path.asksForFolder text = false
  name_eq : (Path.splitLast text).1 = name
  walk : t.walk (Path.splitLast text).2 = .ok folder
  isFolder : t.isFolder folder = true
  isDots : Path.isDots name = false
  isTooLong : Path.isTooLong name = false
  free : t.isFolder (folder.child name) = false

variable {text name : String} {folder : Path}

lemma place_eq_ok (h : t.place text = .ok (folder, name)) :
    checkText text = .ok () ∧ (Path.splitLast text).1 = name ∧
      t.walk (Path.splitLast text).2 = .ok folder ∧ t.isFolder folder = true := by
  rw [place] at h
  obtain ⟨⟨⟩, hc, h⟩ := bind_eq_ok.1 h
  obtain ⟨f, hw, h⟩ := bind_eq_ok.1 h
  split at h
  · rename_i hf
    cases h
    exact ⟨hc, rfl, hw, hf⟩
  · cases h

lemma putFile_eq_ok (h : t.putFile folder name bytes = .ok t') :
    Path.isTooLong name = false ∧ t.isFolder (folder.child name) = false ∧
      t' = t.insert (folder.child name) (.file bytes) := by
  rw [putFile] at h
  split at h
  · cases h
  split at h
  · cases h
  cases h
  simp_all

lemma write_eq_ok (h : t.write text bytes = .ok t') :
    ∃ folder name, t.Places text folder name ∧
      t' = t.insert (folder.child name) (.file bytes) := by
  rw [write] at h
  obtain ⟨⟨folder, name⟩, hp, h⟩ := bind_eq_ok.1 h
  obtain ⟨hc, hn, hw, hf⟩ := place_eq_ok hp
  dsimp only at h
  split at h
  · cases h
  rename_i hd
  rw [Bool.or_eq_true, not_or, Bool.not_eq_true, Bool.not_eq_true] at hd
  obtain ⟨hl, hfree, rfl⟩ := putFile_eq_ok h
  exact ⟨folder, name, ⟨hc, hd.1, hn, hw, hf, hd.2, hl, hfree⟩, rfl⟩

lemma moveTo_eq_ok (h : t.moveTo text bytes = .ok t') :
    ∃ folder name, t.Places text folder name ∧
      t' = t.insert (folder.child name) (.file bytes) := by
  rw [moveTo] at h
  obtain ⟨⟨folder, name⟩, hp, h⟩ := bind_eq_ok.1 h
  obtain ⟨hc, hn, hw, hf⟩ := place_eq_ok hp
  dsimp only at h
  split at h
  · cases h
  rename_i hd
  split at h
  · cases h
  split at h
  · cases h
  rename_i ha
  obtain ⟨hl, hfree, rfl⟩ := putFile_eq_ok h
  exact ⟨folder, name, ⟨hc, by simpa using ha, hn, hw, hf, by simpa using hd, hl, hfree⟩, rfl⟩

namespace Places

lemma read_insert (h : t.Places text folder name) :
    (t.insert (folder.child name) (.file bytes)).read text = .ok bytes := by
  have hq := Path.child_ne_root folder name
  obtain ⟨hsteps, hne⟩ := Path.steps_eq_of_splitLast h.asksForFolder
  rw [h.name_eq] at hsteps hne
  have hentry : FileTree.entry? (t.insert (folder.child name) (.file bytes)) (folder.child name) =
      some (.file bytes) := by
    rw [find_insert hq, if_pos rfl]
  have hdots : name ≠ "." ∧ name ≠ ".." := by simpa [Path.isDots] using h.isDots
  have hidle : Path.isIdle name = false := by simp [Path.isIdle, hne, hdots.1]
  have hstep : (t.insert (folder.child name) (.file bytes)).step folder name =
      .ok (folder.child name) := by
    rw [step, isFolder_insert hq h.free, h.isFolder, hidle, h.isTooLong, hentry,
      if_neg (by decide), if_neg (by decide), if_neg hdots.2, if_neg (by decide)]
    rfl
  have hzero : text.contains '\x00' = false := by
    have hc := h.checkText
    rw [FileTree.checkText] at hc
    split at hc
    · cases hc
    · simp_all
  have hwalk : (t.insert (folder.child name) (.file bytes)).walk (Path.steps text) =
      .ok (folder.child name) := by
    have hfolder : (Path.splitLast text).2.foldlM
        (t.insert (folder.child name) (.file bytes)).step .root = .ok folder :=
      walk_insert hq h.free h.walk
    rw [hsteps, FileTree.walk, List.foldlM_append, hfolder, bind_ok, List.foldlM_cons, hstep]
    rfl
  rw [read, h.checkText, canonical, hzero, if_neg (by decide), hwalk, bind_ok, bind_ok, contents,
    hentry]

lemma putFile_eq_ok (h : t.Places text folder name) (bytes : ByteArray) :
    t.putFile folder name bytes = .ok (t.insert (folder.child name) (.file bytes)) := by
  rw [putFile, h.isTooLong, if_neg (by decide), h.free, if_neg (by decide)]

lemma place_eq_ok (h : t.Places text folder name) : t.place text = .ok (folder, name) := by
  rw [place, h.checkText, bind_ok]
  dsimp only
  rw [h.walk, bind_ok, h.isFolder, if_pos rfl, h.name_eq]
  rfl

lemma write_eq_ok (h : t.Places text folder name) (bytes : ByteArray) :
    t.write text bytes = .ok (t.insert (folder.child name) (.file bytes)) := by
  rw [write, h.place_eq_ok, bind_ok]
  dsimp only
  rw [h.asksForFolder, h.isDots, if_neg (by decide), h.putFile_eq_ok]

lemma moveTo_eq_ok (h : t.Places text folder name) (bytes : ByteArray) :
    t.moveTo text bytes = .ok (t.insert (folder.child name) (.file bytes)) := by
  rw [moveTo, h.place_eq_ok, bind_ok]
  dsimp only
  rw [h.isDots, h.isTooLong, h.asksForFolder, if_neg (by decide), if_neg (by decide),
    if_neg (by decide), h.putFile_eq_ok]

end Places

theorem exists_write (h : t.write text bytes = .ok t') (bytes' : ByteArray) :
    ∃ t'', t.write text bytes' = .ok t'' ∧ t''.read text = .ok bytes' := by
  obtain ⟨folder, name, hp, -⟩ := write_eq_ok h
  exact ⟨_, hp.write_eq_ok bytes', hp.read_insert⟩

theorem exists_replace (h : t.replace text bytes = .ok t') (bytes' : ByteArray) :
    ∃ t'', t.replace text bytes' = .ok t'' ∧ t''.read text = .ok bytes' := by
  rw [replace] at h
  obtain ⟨gathering, hg, h⟩ := bind_eq_ok.1 h
  split at h
  · cases h
  rename_i hf
  cases hm : t.moveTo text bytes with
  | error fault =>
    rw [hm] at h
    cases h
  | ok moved =>
    obtain ⟨folder, name, hp, -⟩ := moveTo_eq_ok hm
    refine ⟨_, ?_, hp.read_insert⟩
    rw [replace, hg, bind_ok, if_neg hf, hp.moveTo_eq_ok bytes']
    rfl

end FileTree

end GridShard
