import GridShard.Proofs.Storage.Writing

namespace GridShard

namespace Session

variable {α β : Type} {x : Session (StateM FileTree) α} {f : α → Session (StateM FileTree) β}
  {a : α} {b : β} {t t' t'' : FileTree} {out out' : ByteArray}

def Yields (x : Session (StateM FileTree) α) (t : FileTree) (a : α) (out : ByteArray)
    (t' : FileTree) : Prop :=
  ∀ s : Transcript, ∃ s' : Transcript,
    (x.run.run s).run t = ((.ok a, s'), t') ∧ s'.output = s.output ++ out

def Fails (x : Session (StateM FileTree) α) (t : FileTree) (report : Report) : Prop :=
  ∀ s : Transcript, ∃ s' : Transcript,
    (x.run.run s).run t = ((.error report, s'), t) ∧ s'.output = s.output

lemma yields_pure (a : α) (t : FileTree) : Yields (pure a) t a .empty t :=
  fun s => ⟨s, rfl, (ByteArray.append_empty).symm⟩

lemma Yields.bind (h : Yields x t a out t') (hf : Yields (f a) t' b out' t'') :
    Yields (x >>= f) t b (out ++ out') t'' := by
  intro s
  obtain ⟨s', hx, hs⟩ := h s
  obtain ⟨s'', hy, hs'⟩ := hf s'
  refine ⟨s'', ?_, by rw [hs', hs, ByteArray.append_assoc]⟩
  rw [ExceptT.run_bind, StateT.run_bind, StateT.run_bind, hx]
  exact hy

lemma Yields.bind_silent (h : Yields x t a .empty t') (hf : Yields (f a) t' b out t'') :
    Yields (x >>= f) t b out t'' := by
  rw [← ByteArray.empty_append (b := out)]
  exact h.bind hf

lemma Yields.then_silent (h : Yields x t a out t') (hf : Yields (f a) t' b .empty t'') :
    Yields (x >>= f) t b out t'' := by
  rw [← ByteArray.append_empty (b := out)]
  exact h.bind hf

lemma Yields.map {g : α → β} (h : Yields x t a out t') : Yields (g <$> x) t (g a) out t' := by
  rw [map_eq_pure_bind]
  exact h.then_silent (yields_pure (g a) t')

lemma Yields.bind_fails {report : Report} (h : Yields x t a .empty t)
    (hf : Fails (f a) t report) : Fails (x >>= f) t report := by
  intro s
  obtain ⟨s', hx, hs⟩ := h s
  obtain ⟨s'', hy, hs'⟩ := hf s'
  refine ⟨s'', ?_, by rw [hs', hs, ByteArray.append_empty]⟩
  rw [ExceptT.run_bind, StateT.run_bind, StateT.run_bind, hx]
  exact hy

lemma Fails.bind {report : Report} (h : Fails x t report) : Fails (x >>= f) t report := by
  intro s
  obtain ⟨s', hx, hs⟩ := h s
  refine ⟨s', ?_, hs⟩
  rw [ExceptT.run_bind, StateT.run_bind, StateT.run_bind, hx]
  rfl

lemma yields_note (line : String) (t : FileTree) : Yields (note line) t () .empty t :=
  fun _ => ⟨_, rfl, (ByteArray.append_empty).symm⟩

lemma yields_printBytes (bytes : ByteArray) (t : FileTree) :
    Yields (printBytes bytes) t () bytes t :=
  fun _ => ⟨_, rfl, rfl⟩

lemma yields_orFail {r : Except Report α} (h : r = .ok a) (t : FileTree) :
    Yields (orFail r) t a .empty t := by
  subst h
  exact yields_pure a t

lemma fails_orFail {r : Except Report α} {report : Report} (h : r = .error report)
    (t : FileTree) : Fails (orFail r) t report := by
  subst h
  exact fun s => ⟨s, rfl, rfl⟩

lemma yields_lift {act : StateM FileTree α} (h : act.run t = (a, t')) :
    Yields (liftM act) t a .empty t' := by
  intro s
  refine ⟨s, ?_, (ByteArray.append_empty).symm⟩
  change ((Except.ok (act.run t).1, s), (act.run t).2) = _
  rw [h]

lemma yields_fileWithin {context : String} {act : StateM FileTree (Except FileFault α)}
    (h : act.run t = (.ok a, t')) : Yields (fileWithin context act) t a .empty t' := by
  apply (yields_lift h).bind_silent
  exact yields_pure a t'

lemma run_adopt {ε : Type} {changed : FileTree → Except ε FileTree} (h : changed t = .ok t') :
    (FileTree.adopt changed).run t = (.ok (), t') := by
  simp only [FileTree.adopt, StateT.run_bind, StateT.run_get, pure_bind, h]
  rfl

lemma run_clock (packers : Packers) (t : FileTree) :
    (FileTree.host packers).clock.run t = (0, t) := rfl

lemma yields_noteTime (packers : Packers) (start bytes : Nat) (t : FileTree) :
    Yields (noteTime (FileTree.host packers) start bytes) t () .empty t := by
  exact (yields_lift (run_clock packers t)).bind_silent ((yields_note _ t).bind_silent (yields_note _ t))

lemma run_read (packers : Packers) {path : String} {bytes : ByteArray} (h : t.read path = .ok bytes) :
    ((FileTree.host packers).read path).run t = (.ok bytes, t) := by
  rw [← h]
  rfl

end Session

end GridShard
