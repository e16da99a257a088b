import GridShard.Proofs.Checked.Filling

/-!
The transform along one axis as it is carried out in place: line after line is read, transformed and
stored where it was read. Every place lies on one line, so that each line is still as it was when its
turn comes, and the outcome is that of transforming all lines at once.
-/

namespace GridShard

def linePlaces (size stride start : Nat) : List Nat :=
  (List.range size).map fun k => start + k * stride

def lineStarts (s : Shape) (axis : Nat) : List Nat :=
  (Shape.coordinates (s.set axis 1)).toList.map s.offset

def Direction.line (d : Direction) (xs : Array Single) : Array Single :=
  Array.ofFn (n := xs.size) fun k =>
    d.element xs (xs.map Single.widen) (basis xs.size) xs.size 1 0 k

namespace Checked

def line (d : Direction) (xs : Array Single) : Checked (Array Single) := do
  let samples ← sampleBasis xs.size
  let image ← (List.range xs.size).mapM fun k =>
    element d xs (xs.map Single.widen) samples xs.size 1 0 k
  return image.toArray

def sweepLine (d : Direction) (size stride : Nat) (data : Array Single) (start : Nat) :
    Checked (Array Single) := do
  let xs ← (linePlaces size stride start).mapM (get data)
  let image ← line d xs.toArray
  scatter ((linePlaces size stride start).zip image.toList) data

def sweepAxis (d : Direction) (c : Chunk) (axis : Nat) : Checked Chunk := do
  let size ← get c.shape.toArray axis
  if size ≤ 1 then return c
  let stride ← get c.shape.strides.toArray axis
  chunk c.shape (← (lineStarts c.shape axis).foldlM (sweepLine d size stride) c.data)

def sweep (d : Direction) (c : Chunk) : Checked Chunk :=
  if c.rank = 2 ∨ c.rank = 3 then (List.range c.rank).reverse.foldlM (sweepAxis d) c
  else throw (.config (.transformRank c.rank))

end Checked

section

variable {a b basis : Array Float} {aStep bStep basisStep : Nat}

lemma dot_congr {count i i' j : Nat} {sum : Float}
    (h : ∀ n < count, a.getD (i + n * aStep) 0 = b.getD (i' + n * bStep) 0) :
    dot a basis aStep basisStep count i j sum = dot b basis bStep basisStep count i' j sum := by
  induction count generalizing i i' j sum with
  | zero => rfl
  | succ count ih =>
    have h0 : a.getD i 0 = b.getD i' 0 := by simpa using h 0 (Nat.succ_pos _)
    rw [dot, dot, h0]
    refine ih fun n hn => ?_
    rw [← next_place, ← next_place]
    exact h (n + 1) (Nat.succ_lt_succ hn)

end

section

variable {data xs : Array Single} {size stride start k : Nat} {d : Direction}

lemma getD_map_widen (data : Array Single) (i : Nat) :
    (data.map Single.widen).getD i 0 = (data.getD i Single.zero).widen :=
  Chunk.getD_widen ⟨[data.size], data, by simp [Shape.volume]⟩ i

lemma Direction.element_congr (basis : Array Float) {stride' start' : Nat}
    (h : ∀ n < size, xs.getD (start' + n * stride') Single.zero =
      data.getD (start + n * stride) Single.zero) :
    d.element xs (xs.map Single.widen) basis size stride' start' k =
      d.element data (data.map Single.widen) basis size stride start k := by
  have hwide : ∀ n < size, (xs.map Single.widen).getD (start' + n * stride') 0 =
      (data.map Single.widen).getD (start + n * stride) 0 := fun n hn => by
    rw [getD_map_widen, getD_map_widen, h n hn]
  have hsum : d.sum (xs.map Single.widen) basis size stride' start' k =
      d.sum (data.map Single.widen) basis size stride start k := by
    cases d
    · exact dot_congr hwide
    · exact dot_congr hwide
  have hnan : lineNaN xs size stride' start' = lineNaN data size stride start := by
    refine List.foldl_ext _ _ _ fun found n hn => ?_
    rw [h n (List.mem_range.1 hn)]
  rw [element, element, hsum, hnan]

lemma Direction.size_line (d : Direction) (xs : Array Single) : (d.line xs).size = xs.size :=
  Array.size_ofFn

lemma Direction.getD_line (d : Direction) (hs : xs.size = size)
    (h : ∀ n < size, xs.getD n Single.zero = data.getD (start + n * stride) Single.zero)
    (hk : k < size) :
    (d.line xs).getD k Single.zero =
      d.element data (data.map Single.widen) (basis size) size stride start k := by
  have hk' : k < (d.line xs).size := by rw [Direction.size_line, hs]; exact hk
  rw [Chunk.getD_eq hk']
  simp only [Direction.line, Array.getElem_ofFn, hs]
  exact Direction.element_congr (basis size) fun n hn => by rw [Nat.zero_add, Nat.mul_one, h n hn]

lemma mem_linePlaces {p : Nat} : p ∈ linePlaces size stride start ↔ ∃ k < size, start + k * stride = p := by
  simp only [linePlaces, List.mem_map, List.mem_range]

@[simp] lemma length_linePlaces (size stride start : Nat) :
    (linePlaces size stride start).length = size := by
  rw [linePlaces, List.length_map, List.length_range]

namespace Checked

lemma line_eq (d : Direction) (xs : Array Single) : line d xs = done (.ok (d.line xs)) := by
  rw [line, sampleBasis_eq, done_ok_bind, mapM_eq (g := fun k => d.element xs (xs.map Single.widen) (basis xs.size) xs.size 1 0 k),
    done_ok_bind, pure_eq]
  · congr 2
    apply Array.ext'
    apply List.ext_getElem
    · simp [Direction.line]
    · intro k hk hk'
      simp [Direction.line]
  · intro k hk
    refine element_eq (List.mem_range.1 hk) (Array.size_map ..) fun n hn => ?_
    omega

lemma gather_eq {places : List Nat} (h : ∀ p ∈ places, p < data.size) :
    places.mapM (get data) = done (.ok (places.map fun p => data.getD p Single.zero)) :=
  mapM_eq fun p hp => get_eq_getD (h p hp) Single.zero

lemma sweepLine_spec (d : Direction) (hn : (linePlaces size stride start).Nodup)
    (h : ∀ p ∈ linePlaces size stride start, p < data.size) :
    ∃ out, sweepLine d size stride data start = done (.ok out) ∧ out.size = data.size ∧
      (∀ k < size, out.getD (start + k * stride) Single.zero =
        d.element data (data.map Single.widen) (basis size) size stride start k) ∧
      ∀ p ∉ linePlaces size stride start, out.getD p Single.zero = data.getD p Single.zero := by
  obtain ⟨xs, hxs⟩ : ∃ xs, ((linePlaces size stride start).map fun p =>
    data.getD p Single.zero).toArray = xs := ⟨_, rfl⟩
  have hsize : xs.size = size := by
    rw [← hxs, List.size_toArray, List.length_map, length_linePlaces]
  have hlength : (d.line xs).toList.length = (linePlaces size stride start).length := by
    rw [Array.length_toList, Direction.size_line, hsize, length_linePlaces]
  have hfst := List.map_fst_zip hlength.ge
  refine ⟨Chunk.scatter ((linePlaces size stride start).zip (d.line xs).toList) data, ?_,
    Chunk.size_scatter .., fun k hk => ?_, fun p hp => ?_⟩
  · rw [sweepLine, gather_eq h, done_ok_bind, hxs, line_eq, done_ok_bind]
    exact scatter_eq fun p hp => h p.1 (List.of_mem_zip hp).1
  · have hplace : start + k * stride ∈ linePlaces size stride start := mem_linePlaces.2 ⟨k, hk, rfl⟩
    have hk' : k < (d.line xs).size := by rw [Direction.size_line, hsize]; exact hk
    have hmem : (start + k * stride, (d.line xs)[k]) ∈
        (linePlaces size stride start).zip (d.line xs).toList := by
      rw [List.mem_iff_getElem]
      refine ⟨k, by rw [List.length_zip, hlength, length_linePlaces, Nat.min_self]; exact hk, ?_⟩
      simp [linePlaces]
    rw [Chunk.getD_scatter (hfst.symm ▸ hn) hmem (h _ hplace), ← Chunk.getD_eq hk']
    refine d.getD_line hsize (fun n hn => ?_) hk
    simp [← hxs, linePlaces, Array.getD_eq_getD_getElem?, hn]
  · exact Chunk.getD_scatter_of_notMem (by rwa [hfst])

/-- The lines at `starts` are transformed and all other places are as they were. -/
structure Swept (d : Direction) (size stride : Nat) (data : Array Single) (starts : List Nat)
    (out : Array Single) : Prop where
  size_eq : out.size = data.size
  written : ∀ start ∈ starts, ∀ k < size, out.getD (start + k * stride) Single.zero =
    d.element data (data.map Single.widen) (basis size) size stride start k
  fresh : ∀ p ∉ starts.flatMap (linePlaces size stride),
    out.getD p Single.zero = data.getD p Single.zero

lemma Swept.sweepLine {starts : List Nat} {out : Array Single} (hs : Swept d size stride data starts out)
    (hn : (linePlaces size stride start).Nodup) (h : ∀ p ∈ linePlaces size stride start, p < data.size)
    (hd : (starts.flatMap (linePlaces size stride)).Disjoint (linePlaces size stride start)) :
    ∃ out', Checked.sweepLine d size stride out start = done (.ok out') ∧
      Swept d size stride data (starts ++ [start]) out' := by
  obtain ⟨out', ho, hsize, hline, hrest⟩ := sweepLine_spec d hn (hs.size_eq ▸ h)
  have old : ∀ p ∈ linePlaces size stride start, out.getD p Single.zero = data.getD p Single.zero :=
    fun p hp => hs.fresh p fun hp' => hd hp' hp
  refine ⟨out', ho, hsize.trans hs.size_eq, fun start' hm k hk => ?_, fun p hp => ?_⟩
  · have hplace : start' + k * stride ∈ linePlaces size stride start' :=
      mem_linePlaces.2 ⟨k, hk, rfl⟩
    obtain hm | hm := List.mem_append.1 hm
    · rw [hrest _ fun hp => hd (List.mem_flatMap.2 ⟨start', hm, hplace⟩) hp]
      exact hs.written start' hm k hk
    · rw [List.mem_singleton] at hm
      subst hm
      rw [hline k hk]
      exact Direction.element_congr (basis size) fun n hn => old _ (mem_linePlaces.2 ⟨n, hn, rfl⟩)
  · rw [List.flatMap_append, List.mem_append, not_or, List.flatMap_singleton] at hp
    rw [hrest p hp.2, hs.fresh p hp.1]

lemma exists_swept (d : Direction) {starts : List Nat}
    (h : ∀ p ∈ starts.flatMap (linePlaces size stride), p < data.size)
    (hn : (starts.flatMap (linePlaces size stride)).Nodup) :
    ∃ out, starts.foldlM (Checked.sweepLine d size stride) data = done (.ok out) ∧
      Swept d size stride data starts out := by
  -- By induction on the lines that are done; each is fresh when its turn comes.
  induction starts using List.reverseRecOn with
  | nil => exact ⟨data, rfl, rfl, fun _ hm => absurd hm List.not_mem_nil, fun _ _ => rfl⟩
  | append_singleton starts start ih =>
    rw [List.flatMap_append, List.flatMap_singleton] at h hn
    obtain ⟨hn, hline, hd⟩ := List.nodup_append'.1 hn
    obtain ⟨out, ho, hs⟩ := ih (fun p hp => h p (List.mem_append_left _ hp)) hn
    obtain ⟨out', ho', hs'⟩ := hs.sweepLine hline (fun p hp => h p (List.mem_append_right _ hp)) hd
    refine ⟨out', ?_, hs'⟩
    rw [List.foldlM_append, ho, done_ok_bind, List.foldlM_cons, ho', done_ok_bind]
    rfl

end Checked

end

section

variable {s : Shape} {axis : Nat}

lemma Shape.volume_set (hx : axis < s.length) :
    Shape.volume (s.set axis 1) = Shape.volume (s.take axis) * Shape.volume (s.drop (axis + 1)) := by
  rw [List.set_eq_take_append_cons_drop, if_pos hx, Shape.volume_append, Shape.volume, Nat.one_mul]

lemma offset_locate_set (hx : axis < s.length) {n : Nat}
    (hn : n < Shape.volume (s.take axis) * Shape.volume (s.drop (axis + 1))) :
    s.offset (Shape.locate (s.set axis 1) n) =
      Chunk.place (s.getD axis 1) (Shape.volume (s.drop (axis + 1)))
        (n / Shape.volume (s.drop (axis + 1))) 0 (n % Shape.volume (s.drop (axis + 1))) := by
  induction s generalizing axis n with
  | nil => cases hx
  | cons e s ih =>
    cases axis with
    | zero =>
      simp only [List.take_zero, List.drop_succ_cons, List.drop_zero, Shape.volume, Nat.one_mul] at hn
      rw [List.set_cons_zero, Shape.locate_cons, Shape.offset_cons (Shape.length_locate s n),
        Shape.offset_locate, Nat.mod_one, List.drop_succ_cons, List.drop_zero, Nat.div_eq_of_lt hn,
        Chunk.place]
      ring
    | succ axis =>
      have hx : axis < s.length := Nat.lt_of_succ_lt_succ hx
      have hset := Shape.volume_set hx
      have hvolume := Shape.volume_eq_lines hx
      simp only [List.take_succ_cons, List.drop_succ_cons, Shape.volume] at hn ⊢
      generalize hv : Shape.volume (s.drop (axis + 1)) = v at hn hset hvolume ⊢
      generalize hb : Shape.volume (s.take axis) = blocks at hn hset hvolume
      rw [Nat.mul_assoc, ← hset] at hn
      have hset0 : 0 < Shape.volume (s.set axis 1) := Nat.pos_of_mul_pos_left (Nat.zero_lt_of_lt hn)
      have hv0 : 0 < v := Nat.pos_of_mul_pos_left (hset ▸ hset0)
      -- `n` is line `m` of block `q` of the first axis.
      obtain ⟨q, hq⟩ : ∃ q, n / Shape.volume (s.set axis 1) = q := ⟨_, rfl⟩
      obtain ⟨m, hm⟩ : ∃ m, n % Shape.volume (s.set axis 1) = m := ⟨_, rfl⟩
      have hn' : n = q * Shape.volume (s.set axis 1) + m := by rw [← hq, ← hm, Nat.div_add_mod']
      have hlt : m < blocks * v := by rw [← hset, ← hm]; exact Nat.mod_lt _ hset0
      have hqe : q % e = q := Nat.mod_eq_of_lt (hq ▸ Nat.div_lt_of_lt_mul (Nat.mul_comm .. ▸ hn))
      have hline : Shape.locate (s.set axis 1) n = Shape.locate (s.set axis 1) m := by
        rw [hn', Shape.locate_add_mul _ _ _ hset0]
      have hsplit : n = m + v * (q * blocks) := by
        rw [hn', hset]
        ring
      have hstart := ih hx (n := m) (by rw [hb, hv]; exact hlt)
      rw [hv] at hstart
      rw [List.set_cons_succ, Shape.locate_cons, hq, hqe,
        Shape.offset_cons (by rw [Shape.length_locate, List.length_set]), hline, hstart, hvolume,
        hsplit, Nat.add_mul_div_left _ _ hv0, Nat.add_mul_mod_self_left, List.getD_cons_succ]
      simp only [Chunk.place]
      ring

lemma lineStarts_eq (hx : axis < s.length) :
    lineStarts s axis =
      (List.range (Shape.volume (s.take axis) * Shape.volume (s.drop (axis + 1)))).map fun n =>
        Chunk.place (s.getD axis 1) (Shape.volume (s.drop (axis + 1)))
          (n / Shape.volume (s.drop (axis + 1))) 0 (n % Shape.volume (s.drop (axis + 1))) := by
  rw [lineStarts, Shape.coordinates_eq, List.map_map, Shape.volume_set hx]
  exact List.map_congr_left fun n hn => offset_locate_set hx (List.mem_range.1 hn)

lemma exists_place_of_mem_lineStarts (hx : axis < s.length) {start : Nat}
    (h : start ∈ lineStarts s axis) :
    ∃ q r, r < s.strides.getD axis 1 ∧
      start = Chunk.place (s.getD axis 1) (s.strides.getD axis 1) q 0 r := by
  rw [lineStarts_eq hx] at h
  obtain ⟨n, hn, rfl⟩ := List.mem_map.1 h
  have hstride := Nat.pos_of_mul_pos_left (Nat.zero_lt_of_lt (List.mem_range.1 hn))
  rw [Shape.strides_getD hx]
  exact ⟨_, _, Nat.mod_lt _ hstride, rfl⟩

lemma linePlaces_place (size stride q r : Nat) :
    linePlaces size stride (Chunk.place size stride q 0 r) =
      (List.range size).map fun k => Chunk.place size stride q k r :=
  List.map_congr_left fun k _ => Chunk.place_zero_add size stride q r k

lemma perm_lines (hx : axis < s.length) :
    ((lineStarts s axis).flatMap (linePlaces (s.getD axis 1) (s.strides.getD axis 1))).Perm
      (List.range s.volume) := by
  have hvolume := Shape.volume_eq_lines hx
  rw [lineStarts_eq hx, Shape.strides_getD hx, hvolume]
  generalize s.getD axis 1 = size
  generalize Shape.volume (s.drop (axis + 1)) = stride
  generalize Shape.volume (s.take axis) = blocks
  refine (List.Subperm.perm_of_length_le (List.subperm_of_subset List.nodup_range fun p hp => ?_) ?_).symm
  · have hp := List.mem_range.1 hp
    have hsize : 0 < size := Nat.pos_of_ne_zero fun h => by simp [h] at hp
    have hstride : 0 < stride := Nat.pos_of_ne_zero fun h => by simp [h] at hp
    obtain ⟨q, k, r, hk, hr, rfl⟩ := Chunk.exists_place hsize hstride p
    have hq := Chunk.lt_of_place_lt hp
    refine List.mem_flatMap.2 ⟨Chunk.place size stride q 0 r, List.mem_map.2 ⟨q * stride + r, ?_, ?_⟩,
      ?_⟩
    · rw [List.mem_range]
      calc q * stride + r < (q + 1) * stride := by rw [Nat.succ_mul]; omega
        _ ≤ blocks * stride := Nat.mul_le_mul_right _ hq
    · rw [Nat.mul_comm q, Nat.mul_add_div hstride, Nat.div_eq_of_lt hr, Nat.mul_add_mod,
        Nat.mod_eq_of_lt hr, Nat.add_zero]
    · rw [linePlaces_place]
      exact List.mem_map.2 ⟨k, List.mem_range.2 hk, rfl⟩
  · simp only [List.length_flatMap, length_linePlaces, List.map_const', List.sum_replicate,
      List.length_map, List.length_range, smul_eq_mul]
    exact le_of_eq (by ring)

end

namespace Checked

variable {d : Direction} {c : Chunk} {axis : Nat}

lemma exists_swept_lines (d : Direction) (hx : axis < c.shape.length) {before after : List Nat}
    (hl : lineStarts c.shape axis = before ++ after) :
    ∃ out, before.foldlM (sweepLine d (c.shape.getD axis 1) (c.shape.strides.getD axis 1)) c.data =
        done (.ok out) ∧
      Swept d (c.shape.getD axis 1) (c.shape.strides.getD axis 1) c.data before out := by
  have hp := perm_lines hx
  rw [hl, List.flatMap_append] at hp
  refine exists_swept d (fun p hm => ?_) (List.nodup_append'.1 (hp.nodup_iff.2 List.nodup_range)).1
  rw [c.size_eq]
  exact List.mem_range.1 (hp.mem_iff.1 (List.mem_append_left _ hm))

lemma exists_untouched (d : Direction) (hx : axis < c.shape.length) {before after : List Nat} {start : Nat}
    (hl : lineStarts c.shape axis = before ++ start :: after) :
    ∃ data, before.foldlM (sweepLine d (c.shape.getD axis 1) (c.shape.strides.getD axis 1)) c.data =
        done (.ok data) ∧
      ∀ p ∈ linePlaces (c.shape.getD axis 1) (c.shape.strides.getD axis 1) start,
        data[p]? = c.data[p]? := by
  obtain ⟨data, hdata, hs⟩ := exists_swept_lines d hx hl
  refine ⟨data, hdata, fun p hp => ?_⟩
  have hlines := perm_lines hx
  rw [hl, List.flatMap_append] at hlines
  have hlater : p ∈ (start :: after).flatMap
      (linePlaces (c.shape.getD axis 1) (c.shape.strides.getD axis 1)) :=
    List.mem_flatMap.2 ⟨start, List.mem_cons_self .., hp⟩
  have hd := (List.nodup_append'.1 (hlines.nodup_iff.2 List.nodup_range)).2.2
  have hlt := List.mem_range.1 (hlines.mem_iff.1 (List.mem_append_right _ hlater))
  rw [← c.size_eq] at hlt
  have hlt' : p < data.size := hs.size_eq.symm ▸ hlt
  have hfresh := hs.fresh p fun hp' => hd hp' hlater
  rw [Chunk.getD_eq hlt, Chunk.getD_eq hlt'] at hfresh
  rw [Array.getElem?_eq_getElem hlt, Array.getElem?_eq_getElem hlt', hfresh]

lemma sweepAxis_eq (d : Direction) (hx : axis < c.shape.length) :
    sweepAxis d c axis = done (.ok (c.transformAxis d axis)) := by
  rw [sweepAxis, get_toArray hx 1, done_ok_bind, Chunk.transformAxis]
  split
  · rfl
  rename_i hlong
  obtain ⟨out, ho, hs⟩ := exists_swept_lines d hx (List.append_nil _).symm
  rw [get_toArray (by rwa [Shape.length_strides]) 1, done_ok_bind, ho, done_ok_bind]
  refine chunk_eq (c.transformLines d _ _) rfl (Array.ext ?_ fun i hi hi' => ?_)
  · rw [hs.size_eq, Chunk.size_eq, c.size_eq]
    rfl
  · have hlt : i < c.shape.volume := by
      rw [Chunk.size_eq] at hi
      exact hi
    obtain ⟨start, hm, hp⟩ := List.mem_flatMap.1 ((perm_lines hx).mem_iff.2 (List.mem_range.2 hlt))
    obtain ⟨k, hk, rfl⟩ := mem_linePlaces.1 hp
    have hline := hs.written start hm k hk
    obtain ⟨q, r, hr, rfl⟩ := exists_place_of_mem_lineStarts hx hm
    rw [Chunk.place_zero_add] at hlt
    rw [← Chunk.item_eq hi, ← Chunk.getD_eq hi', hline, Chunk.place_zero_add]
    exact Chunk.item_transformLines hk hr hlt

lemma sweep_eq (d : Direction) (c : Chunk) : sweep d c = done (c.transform d) := by
  rw [sweep, Chunk.transform]
  split
  swap
  · rfl
  refine foldlM_eq (P := fun b => b.shape = c.shape) rfl fun b axis hb ha => ?_
  rw [List.mem_reverse, List.mem_range] at ha
  exact ⟨sweepAxis_eq d (hb.symm ▸ ha), by rw [Chunk.shape_transformAxis, hb]⟩

end Checked

namespace Chunk

def lineThrough (c : Chunk) (axis : Nat) (x : Coords) : Array Single :=
  Array.ofFn (n := c.shape.getD axis 1) fun n => c.get (x.set axis n)

def alongAxis (d : Direction) (c : Chunk) (axis : Nat) : Chunk :=
  if c.shape.getD axis 1 ≤ 1 then c
  else
    { shape := c.shape
      data := (Shape.coordinates c.shape).map fun x =>
        (d.line (c.lineThrough axis x)).getD (x.getD axis 0) Single.zero
      size_eq := by
        rw [Array.size_map, ← Array.length_toList, Shape.coordinates_eq, List.length_map,
          List.length_range] }

variable {d : Direction} {c : Chunk} {axis : Nat} {s : Shape} {x : Coords}

lemma getD_lt_of_holds (hx : axis < s.length) (h : s.holds x = true) :
    x.getD axis 0 < s.getD axis 1 := by
  have hl := Shape.length_of_holds h
  simp only [Shape.holds, Bool.and_eq_true, List.all_eq_true, decide_eq_true_eq] at h
  have hm : (x.getD axis 0, s.getD axis 1) ∈ x.zip s := by
    rw [List.mem_iff_getElem]
    refine ⟨axis, by rw [List.length_zip]; omega, ?_⟩
    rw [List.getElem_zip, List.getD_eq_getElem _ _ (by omega), List.getD_eq_getElem _ _ hx]
  exact h.2 _ hm

lemma exists_offset_set (hx : axis < s.length) (h : s.holds x = true) :
    ∃ q r, r < s.strides.getD axis 1 ∧
      ∀ n, s.offset (x.set axis n) = place (s.getD axis 1) (s.strides.getD axis 1) q n r := by
  induction s generalizing axis x with
  | nil => cases hx
  | cons e s ih =>
    obtain _ | ⟨i, x⟩ := x
    · cases h
    rw [Shape.holds_cons_cons, Bool.and_eq_true] at h
    have hl := Shape.length_of_holds h.2
    cases axis with
    | zero =>
      refine ⟨0, Shape.offset s x, Shape.offset_lt h.2, fun n => ?_⟩
      rw [List.set_cons_zero, Shape.offset_cons hl, place, Nat.zero_mul, Nat.zero_add]
      rfl
    | succ axis =>
      have hx : axis < s.length := Nat.lt_of_succ_lt_succ hx
      obtain ⟨q, r, hr, hn⟩ := ih hx h.2
      refine ⟨i * Shape.volume (s.take axis) + q, r, hr, fun n => ?_⟩
      rw [List.set_cons_succ, Shape.offset_cons (by rwa [List.length_set]), hn,
        Shape.volume_eq_lines hx, Shape.strides, List.getD_cons_succ, List.getD_cons_succ,
        Shape.strides_getD hx]
      simp only [place]
      ring

lemma get_transformAxis (hx : axis < c.shape.length) (hlong : 1 < c.shape.getD axis 1)
    (h : c.shape.holds x = true) :
    (transformAxis d c axis).get x = (d.line (c.lineThrough axis x)).getD (x.getD axis 0) Single.zero := by
  obtain ⟨q, r, hr, hn⟩ := exists_offset_set hx h
  have hk := getD_lt_of_holds hx h
  have hself : x.set axis (x.getD axis 0) = x := by
    rw [List.getD_eq_getElem _ _ (by rwa [Shape.length_of_holds h]), List.set_getElem_self]
  have hplace := hn (x.getD axis 0)
  rw [hself] at hplace
  have hlt := Shape.offset_lt h
  rw [hplace] at hlt
  have hline : ∀ n < c.shape.getD axis 1, (c.lineThrough axis x).getD n Single.zero =
      c.data.getD (place (c.shape.getD axis 1) (c.shape.strides.getD axis 1) q 0 r +
        n * c.shape.strides.getD axis 1) Single.zero := fun n hn' => by
    rw [getD_eq (by rwa [lineThrough, Array.size_ofFn]), place_zero_add]
    simp only [lineThrough, Array.getElem_ofFn, get, hn]
    rfl
  rw [get, shape_transformAxis, hplace, transformAxis, if_neg (by omega),
    item_transformLines hk hr hlt]
  have hsize : (c.lineThrough axis x).size = c.shape.getD axis 1 := Array.size_ofFn
  exact (d.getD_line hsize hline hk).symm

lemma item_alongAxis (hlong : 1 < c.shape.getD axis 1) {i : Nat} (hi : i < c.shape.volume) :
    (alongAxis d c axis).item i =
      (d.line (c.lineThrough axis (c.shape.locate i))).getD ((c.shape.locate i).getD axis 0)
        Single.zero := by
  have hcoords : (Shape.coordinates c.shape)[i]? = some (c.shape.locate i) := by
    rw [← Array.getElem?_toList, Shape.coordinates_eq, List.getElem?_map, List.getElem?_range hi]
    rfl
  rw [item, alongAxis, if_neg (by omega), Array.getD_eq_getD_getElem?, Array.getElem?_map, hcoords]
  rfl

lemma alongAxis_eq (d : Direction) (hx : axis < c.shape.length) :
    alongAxis d c axis = transformAxis d c axis := by
  by_cases hlong : 1 < c.shape.getD axis 1
  · have hshape : (alongAxis d c axis).shape = c.shape := by
      rw [alongAxis, if_neg (by omega)]
    refine ext_item (hshape.trans (shape_transformAxis d c axis).symm) fun i hi => ?_
    rw [hshape] at hi
    have hpos := Shape.holds_locate (Nat.zero_lt_of_lt hi) i
    rw [item_alongAxis hlong hi, ← get_transformAxis hx hlong hpos, get, shape_transformAxis,
      Shape.offset_locate_of_lt hi]
  · rw [alongAxis, transformAxis, if_pos (by omega), if_pos (by omega)]

lemma foldl_alongAxis_eq (d : Direction) {axes : List Nat} (h : ∀ axis ∈ axes, axis < c.shape.length) :
    axes.foldl (alongAxis d) c = axes.foldl (transformAxis d) c := by
  induction axes generalizing c with
  | nil => rfl
  | cons axis axes ih =>
    obtain ⟨hx, h⟩ := List.forall_mem_cons.1 h
    rw [List.foldl_cons, List.foldl_cons, alongAxis_eq d hx]
    exact ih fun y hy => by rw [shape_transformAxis]; exact h y hy

end Chunk

/-- The transform of a chunk of rank two or three replaces, for one axis after the other from the last
to the first, every element by the one at its place in its transformed line. Carried out in place it
stays inside all arrays and comes to the same, since the lines along an axis go through every place
once, and the places of each are untouched until its turn comes. -/
theorem transform_line_by_line (d : Direction) (c : Chunk) (hr : c.rank = 2 ∨ c.rank = 3) :
    c.transform d = .ok ((List.range c.rank).reverse.foldl (Chunk.alongAxis d) c) ∧
      Checked.sweep d c = Checked.done (c.transform d) ∧
      ∀ axis < c.rank,
        (c.shape.getD axis 1 ≤ 1 →
          Chunk.alongAxis d c axis = c ∧ Checked.sweepAxis d c axis = Checked.done (.ok c)) ∧
        (1 < c.shape.getD axis 1 → ∀ x, c.shape.holds x = true →
          (Chunk.alongAxis d c axis).get x =
            (d.line (c.lineThrough axis x)).getD (x.getD axis 0) Single.zero) ∧
        ((lineStarts c.shape axis).flatMap
          (linePlaces (c.shape.getD axis 1) (c.shape.strides.getD axis 1))).Perm
            (List.range c.shape.volume) ∧
        ∀ before start after, lineStarts c.shape axis = before ++ start :: after →
          ∃ data, before.foldlM
              (Checked.sweepLine d (c.shape.getD axis 1) (c.shape.strides.getD axis 1)) c.data =
                Checked.done (.ok data) ∧
            ∀ p ∈ linePlaces (c.shape.getD axis 1) (c.shape.strides.getD axis 1) start,
              data[p]? = c.data[p]? := by
  refine ⟨?_, Checked.sweep_eq d c, fun axis hx => ⟨fun hshort => ?_, fun hlong x hpos => ?_,
    perm_lines hx, fun before start after hl => ?_⟩⟩
  · rw [Chunk.transform, if_pos hr, Chunk.foldl_alongAxis_eq d fun axis ha => ?_]
    rwa [List.mem_reverse, List.mem_range] at ha
  · have hsame : Chunk.transformAxis d c axis = c := if_pos hshort
    rw [Chunk.alongAxis_eq d hx, Checked.sweepAxis_eq d hx, hsame]
    exact ⟨rfl, rfl⟩
  · rw [Chunk.alongAxis_eq d hx, Chunk.get_transformAxis hx hlong hpos]
  · exact Checked.exists_untouched d hx hl

def tallChunk : Chunk := ⟨[3, 1, 2], #[⟨1⟩, ⟨2⟩, ⟨3⟩, ⟨4⟩, ⟨5⟩, ⟨6⟩], rfl⟩

theorem transform_line_by_line_tall :
    (tallChunk.rank = 2 ∨ tallChunk.rank = 3) ∧
      tallChunk.transform .inverse = .ok ([2, 1, 0].foldl (Chunk.alongAxis .inverse) tallChunk) ∧
      Chunk.alongAxis .inverse tallChunk 1 = tallChunk ∧
      (Chunk.alongAxis .inverse tallChunk 0).get [2, 0, 1] =
        (Direction.inverse.line (tallChunk.lineThrough 0 [2, 0, 1])).getD 2 Single.zero ∧
      lineStarts [3, 1, 2] 0 = [0, 1] ∧ linePlaces 3 2 1 = [1, 3, 5] ∧
        ∃ data, [0].foldlM (Checked.sweepLine .inverse 3 2) tallChunk.data = Checked.done (.ok data) ∧
          data[5]? = some ⟨6⟩ := by
  have hr : tallChunk.rank = 2 ∨ tallChunk.rank = 3 := .inr rfl
  obtain ⟨htransform, -, haxis⟩ := transform_line_by_line .inverse tallChunk hr
  obtain ⟨-, hget, -, huntouched⟩ := haxis 0 (by decide)
  obtain ⟨data, hdata, hplaces⟩ := huntouched [0] 1 [] (by decide)
  exact ⟨hr, htransform, ((haxis 1 (by decide)).1 (by decide)).1,
    hget (by decide) [2, 0, 1] (by decide), by decide, by decide, data, hdata, hplaces 5 (by decide)⟩

end GridShard
