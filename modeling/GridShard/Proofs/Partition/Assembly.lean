import GridShard.Proofs.Outcome
import GridShard.Proofs.Partition.Cover

namespace GridShard

namespace DenseArray

lemma get_set {a : DenseArray} {x y : Coords} (hx : a.shape.holds x = true)
    (hy : a.shape.holds y = true) (v : Double) :
    (a.set x v).get y = if x = y then v else a.get y := by
  have hlt : a.shape.offset x < a.data.size := a.size_eq ▸ Shape.offset_lt hx
  have hiff : a.shape.offset x = a.shape.offset y ↔ x = y :=
    ⟨Shape.offset_injective hx hy, fun h => h ▸ rfl⟩
  simp only [get, set, Array.getD_eq_getD_getElem?, Array.getElem?_setIfInBounds, hiff]
  split
  · rfl
  · rfl

lemma shape_foldl_set (f : Coords → Coords) (g : Coords → Double) (cs : List Coords)
    (a : DenseArray) : (cs.foldl (fun a c => a.set (f c) (g c)) a).shape = a.shape := by
  induction cs generalizing a with
  | nil => rfl
  | cons c cs ih => exact ih (a.set (f c) (g c))

lemma get_foldl_set {expected : Coords → Double} {f : Coords → Coords} {g : Coords → Double}
    {cs : List Coords} {a : DenseArray} {y : Coords}
    (hf : ∀ c ∈ cs, a.shape.holds (f c) = true ∧ g c = expected (f c))
    (hy : a.shape.holds y = true) (h : a.get y = expected y ∨ ∃ c ∈ cs, f c = y) :
    (cs.foldl (fun a c => a.set (f c) (g c)) a).get y = expected y := by
  induction cs generalizing a with
  | nil =>
    obtain h | ⟨c, hc, _⟩ := h
    · exact h
    · cases hc
  | cons c cs ih =>
    obtain ⟨hc, hg⟩ := hf c (List.mem_cons_self ..)
    refine ih (fun d hd => hf d (List.mem_cons_of_mem _ hd)) hy ?_
    rw [get_set hc hy]
    by_cases he : f c = y
    · rw [if_pos he, hg, he]
      exact .inl rfl
    · rw [if_neg he]
      obtain h | ⟨d, hd, hdy⟩ := h
      · exact .inl h
      · obtain rfl | hd := List.mem_cons.1 hd
        · exact absurd hdy he
        · exact .inr ⟨d, hd, hdy⟩

end DenseArray

open GridShard.Partition

lemma shape_place (chunkShape : Shape) (array : DenseArray) (g : Coords) (chunk : Chunk) :
    (place chunkShape array g chunk).shape = array.shape := by
  rw [place, ← Array.foldl_toList]
  exact DenseArray.shape_foldl_set ..

lemma get_place {expected : Coords → Double} {chunkShape : Shape} {array : DenseArray}
    {g y : Coords} {chunk : Chunk} (hl : array.shape.length = chunkShape.length)
    (hz : 0 ∉ chunkShape) (hg : (chunkGrid array.shape chunkShape).holds g = true)
    (hc : ∀ c, (validExtent array.shape chunkShape g).holds c = true →
      (chunk.get c).toDouble = expected (position chunkShape g c))
    (hy : array.shape.holds y = true)
    (h : array.get y = expected y ∨ owner chunkShape y = g) :
    (place chunkShape array g chunk).get y = expected y := by
  rw [place, ← Array.foldl_toList]
  refine DenseArray.get_foldl_set (fun c hm => ?_) hy (h.imp_right fun ho => ?_)
  · have hv := Shape.mem_coordinates.1 hm
    exact ⟨(position_spec hg hv hl).1, hc c hv⟩
  · obtain ⟨-, hw, hp⟩ := owner_spec hl hz hy
    rw [ho] at hw hp
    exact ⟨within chunkShape y, Shape.mem_coordinates.2 hw, hp⟩

lemma shape_foldl_place (chunkShape : Shape) (at' : Nat → Coords) (cs : List (Chunk × Nat))
    (array : DenseArray) :
    (cs.foldl (fun array c => place chunkShape array (at' c.2) c.1) array).shape = array.shape := by
  induction cs generalizing array with
  | nil => rfl
  | cons c cs ih => exact (ih _).trans (shape_place ..)

lemma get_foldl_place {expected : Coords → Double} {shape chunkShape : Shape}
    {cs : List (Chunk × Nat)} {array : DenseArray} {y : Coords} (hs : array.shape = shape)
    (hl : shape.length = chunkShape.length) (hz : 0 ∉ chunkShape)
    (hc : ∀ p ∈ cs, p.2 < (chunkGrid shape chunkShape).volume ∧
      ∀ c, (validExtent shape chunkShape ((chunkGrid shape chunkShape).locate p.2)).holds c = true →
        (p.1.get c).toDouble =
          expected (position chunkShape ((chunkGrid shape chunkShape).locate p.2) c))
    (hy : shape.holds y = true)
    (h : array.get y = expected y ∨
      ∃ p ∈ cs, owner chunkShape y = (chunkGrid shape chunkShape).locate p.2) :
    (cs.foldl (fun array c => place chunkShape array ((chunkGrid shape chunkShape).locate c.2) c.1)
      array).get y = expected y := by
  induction cs generalizing array with
  | nil =>
    obtain h | ⟨p, hp, _⟩ := h
    · exact h
    · cases hp
  | cons p cs ih =>
    obtain ⟨hlt, hp⟩ := hc p (List.mem_cons_self ..)
    refine ih ((shape_place ..).trans hs) (fun q hq => hc q (List.mem_cons_of_mem _ hq)) ?_
    by_cases ho : array.get y = expected y ∨
        owner chunkShape y = (chunkGrid shape chunkShape).locate p.2
    · subst hs
      have hg := Shape.holds_locate (Nat.lt_of_le_of_lt (Nat.zero_le _) hlt) p.2
      exact .inl (get_place hl hz hg hp hy ho)
    · obtain ⟨hn, hne⟩ := not_or.1 ho
      obtain h | ⟨q, hq, hqy⟩ := h
      · exact absurd h hn
      · obtain rfl | hq := List.mem_cons.1 hq
        · exact absurd hqy hne
        · exact .inr ⟨q, hq, hqy⟩

lemma shape_assemble (shape chunkShape : Shape) (chunks : Array Chunk) :
    (assemble shape chunkShape chunks).shape = shape :=
  shape_foldl_place ..

lemma get_assemble {shape chunkShape : Shape} {chunks : Array Chunk} {g c : Coords} {chunk : Chunk}
    (hl : shape.length = chunkShape.length) (hz : 0 ∉ chunkShape)
    (hsize : chunks.size = (chunkGrid shape chunkShape).volume)
    (hg : (chunkGrid shape chunkShape).holds g = true)
    (hc : (validExtent shape chunkShape g).holds c = true)
    (hchunk : chunks[(chunkGrid shape chunkShape).offset g]? = some chunk) :
    (assemble shape chunkShape chunks).get (position chunkShape g c) = (chunk.get c).toDouble := by
  let expected : Coords → Double := fun y =>
    ((chunks.getD ((chunkGrid shape chunkShape).offset (owner chunkShape y)) chunk).get
      (within chunkShape y)).toDouble
  obtain ⟨hp, ho, hw⟩ := position_spec hg hc hl
  have he : expected (position chunkShape g c) = (chunk.get c).toDouble := by
    simp only [expected, ho, hw, Array.getD_eq_getD_getElem?, hchunk, Option.getD_some]
  rw [← he]
  refine get_foldl_place rfl hl hz (fun p hm => ?_) hp (.inr ?_)
  · obtain ⟨-, hlt, hget⟩ := List.mem_zipIdx hm
    rw [Nat.zero_add, Array.length_toList, hsize] at hlt
    refine ⟨hlt, fun d hd => ?_⟩
    have hq := Shape.holds_locate (Nat.lt_of_le_of_lt (Nat.zero_le _) hlt) p.2
    obtain ⟨-, ho, hw⟩ := position_spec hq hd hl
    have hi : p.2 < chunks.size := hsize ▸ hlt
    simp only [expected, ho, hw, Shape.offset_locate_of_lt hlt, Array.getD_eq_getD_getElem?,
      Array.getElem?_eq_getElem hi, Option.getD_some]
    rw [hget]
    simp
  · have hlt := Shape.offset_lt hg
    refine ⟨(chunk, (chunkGrid shape chunkShape).offset g), ?_, ?_⟩
    · rw [List.mem_zipIdx_iff_getElem?, Array.getElem?_toList, hchunk]
    · rw [ho, Shape.locate_offset hg]

end GridShard
