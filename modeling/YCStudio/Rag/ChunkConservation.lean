import Mathlib.Data.List.Chain
import YCStudio.Rag.ChunkLimits

namespace YCStudio.TextChunker

variable (chunker : TextChunker)

structure Segment where
  chunk : ChunkData
  carried : Str
  fresh : Str

def Segment.Exact (segment : Segment) : Prop :=
  Str.essence segment.chunk.text = segment.carried ++ segment.fresh ∧ segment.fresh ≠ []

def Segment.CarriedFrom (previous next : Segment) : Prop :=
  next.carried = [] ∨
    chunker.overlapTokens ≠ 0 ∧
      ∃ t, t <:+ previous.chunk.text ∧ chunker.countTokens t ≤ chunker.overlapTokens ∧
        next.carried = Str.essence t ∧ next.carried <:+ Str.essence previous.chunk.text

structure Covers (chunks : List ChunkData) (carried content : Str) (segments : List Segment) :
    Prop where
  chunks_eq : segments.map Segment.chunk = chunks
  exact : ∀ segment ∈ segments, segment.Exact
  head : ∀ segment ∈ segments.head?, segment.carried = carried
  chain : segments.IsChain (Segment.CarriedFrom chunker)
  total : (segments.map Segment.fresh).flatten = content

theorem Covers.singleton {chunk : ChunkData} {segment : Segment} (hexact : segment.Exact)
    (hchunk : segment.chunk = chunk) :
    Covers chunker [chunk] segment.carried segment.fresh [segment] where
  chunks_eq := by simp [hchunk]
  exact := by simpa using hexact
  head := by simp
  chain := List.IsChain.singleton _
  total := by simp

theorem Covers.cons {chunker : TextChunker} {segment : Segment} {chunks : List ChunkData}
    {carried content : Str} {segments : List Segment} (hexact : segment.Exact)
    (hcarried : ∀ next : Segment, next.carried = carried →
      Segment.CarriedFrom chunker segment next)
    (h : Covers chunker chunks carried content segments) :
    Covers chunker (segment.chunk :: chunks) segment.carried (segment.fresh ++ content)
      (segment :: segments) where
  chunks_eq := by simp [h.chunks_eq]
  exact := by
    intro s hs
    rcases List.mem_cons.mp hs with rfl | hs
    · exact hexact
    · exact h.exact s hs
  head := by simp
  chain := List.isChain_cons.mpr ⟨fun next hnext => hcarried next (h.head next hnext), h.chain⟩
  total := by simp [h.total]

-- The loop's invariant: `current` is what was carried over followed by what is new, and a
-- restart of `current` carries over a suffix of the chunk that was just appended.
theorem packFrom_covers {pieces : List Str}
    (hpieces : ∀ piece ∈ pieces, Str.strip piece = piece ∧ piece ≠ []) {ordinal : Nat}
    {current carried fresh : Str} {chunks : List ChunkData}
    (hstripped : Str.strip current = current) (hsplit : Str.essence current = carried ++ fresh)
    (hfresh : fresh ≠ []) (h : chunker.packFrom ordinal current pieces = .ok chunks) :
    ∃ segments, Covers chunker chunks carried (fresh ++ Str.essence pieces.flatten) segments := by
  have hcurrent : current ≠ [] := by
    rintro rfl
    exact hfresh (List.append_eq_nil_iff.mp hsplit.symm).2
  induction pieces generalizing ordinal current carried fresh chunks with
  | nil =>
    rw [packFrom, if_neg hcurrent] at h
    obtain ⟨chunk, hchunk, heq⟩ := Except.bind_eq_ok h
    cases heq
    have htext := (chunker.makeChunk_text hchunk).trans hstripped
    have hexact : Segment.Exact ⟨chunk, carried, fresh⟩ :=
      ⟨by simpa [htext] using hsplit, hfresh⟩
    refine ⟨[⟨chunk, carried, fresh⟩], ?_⟩
    simpa using Covers.singleton chunker hexact rfl
  | cons piece pieces ih =>
    obtain ⟨hpieceStripped, hpieceNe⟩ := hpieces piece List.mem_cons_self
    have hpieceFresh := Str.essence_ne_nil hpieceStripped hpieceNe
    have hrest := fun p hp => hpieces p (List.mem_cons_of_mem _ hp)
    rw [packFrom] at h
    dsimp only at h
    split at h
    · obtain ⟨chunk, hchunk, h⟩ := Except.bind_eq_ok h
      obtain ⟨tail, htail, heq⟩ := Except.bind_eq_ok h
      cases heq
      have htext := (chunker.makeChunk_text hchunk).trans hstripped
      have hexact : Segment.Exact ⟨chunk, carried, fresh⟩ :=
        ⟨by simpa [htext] using hsplit, hfresh⟩
      split at htail
      · obtain ⟨t, hsuffix, hcount, htailEq⟩ :=
          chunker.tokenLimitedTail_suffix current chunker.overlapTokens
        rw [htailEq] at htail
        obtain ⟨segments, hcovers⟩ := ih hrest (strip_join _ _)
          (by rw [essence_join, Str.essence_strip]) hpieceFresh htail (join_ne_nil hpieceFresh)
        have hcarried : ∀ next : Segment, next.carried = Str.essence t →
            Segment.CarriedFrom chunker ⟨chunk, carried, fresh⟩ next := by
          intro next hnext
          rcases hcount with rfl | ⟨hlimit, hwithin⟩
          · exact Or.inl hnext
          · rw [← htext] at hsuffix
            exact Or.inr ⟨hlimit, t, hsuffix, hwithin, hnext,
              hnext ▸ Trim.essence_suffix isSpace hsuffix⟩
        exact ⟨_, by simpa using hcovers.cons hexact hcarried⟩
      · obtain ⟨segments, hcovers⟩ := ih hrest hpieceStripped (List.nil_append _).symm
          hpieceFresh htail hpieceNe
        exact ⟨_, by simpa using hcovers.cons hexact fun next hnext => Or.inl hnext⟩
    · have hjoined : Str.essence (join current piece) =
          carried ++ (fresh ++ Str.essence piece) := by
        rw [essence_join, hsplit, List.append_assoc]
      obtain ⟨segments, hcovers⟩ := ih hrest (strip_join _ _) hjoined
        (fun hnil => hfresh (List.append_eq_nil_iff.mp hnil).1) h (join_ne_nil hpieceFresh)
      exact ⟨segments, by simpa using hcovers⟩

theorem Covers.carried_nil {chunker : TextChunker} (hoverlap : chunker.overlapTokens = 0)
    {chunks : List ChunkData} {content : Str} {segments : List Segment}
    (h : Covers chunker chunks [] content segments) :
    ∀ segment ∈ segments, segment.carried = [] := by
  have hhead := h.head
  have hchain := h.chain
  clear h
  induction segments with
  | nil => simp
  | cons segment segments ih =>
    obtain ⟨hnext, hrest⟩ := List.isChain_cons.mp hchain
    intro s hs
    rcases List.mem_cons.mp hs with rfl | hs
    · exact hhead s rfl
    · refine ih (fun next hmem => ?_) hrest s hs
      exact (hnext next hmem).resolve_right fun hover => hover.1 hoverlap

theorem Covers.essence_eq {chunker : TextChunker} (hoverlap : chunker.overlapTokens = 0)
    {chunks : List ChunkData} {content : Str} {segments : List Segment}
    (h : Covers chunker chunks [] content segments) :
    (chunks.map fun chunk => Str.essence chunk.text).flatten = content := by
  have hmap : segments.map (fun segment => Str.essence segment.chunk.text) =
      segments.map Segment.fresh := by
    apply List.map_congr_left
    intro segment hs
    rw [(h.exact segment hs).1, h.carried_nil hoverlap segment hs, List.nil_append]
  rw [← h.chunks_eq, List.map_map, ← h.total, ← hmap]
  rfl

def Conserves (text : Str) (chunks : List ChunkData) : Prop :=
  ∃ segments, Covers chunker chunks [] (Str.essence text) segments

theorem split_conserves {text : Str} {chunks : List ChunkData}
    (h : chunker.split text = .ok chunks) :
    chunker.Conserves text chunks ∧
      (chunker.overlapTokens = 0 →
        (chunks.map fun chunk => Str.essence chunk.text).flatten = Str.essence text) := by
  have hconserves : chunker.Conserves text chunks := by
    by_cases hne : Str.strip text = []
    · simp only [split, if_pos hne] at h
      cases h
      have hess : Str.essence text = [] := by rw [← Str.essence_strip, hne, Str.essence_nil]
      exact ⟨[], rfl, by simp, by simp, .nil, by simp [hess]⟩
    · rw [chunker.split_eq_pack hne] at h
      obtain ⟨pieces, hpieces, hpack⟩ := Except.bind_eq_ok h
      have hess := chunker.splitToLimit_essence chunker.separator_ne_nil hpieces
      have hstripped := chunker.splitToLimit_stripped (Str.strip_strip text) hpieces
      have hpieceNe := chunker.splitToLimit_ne_nil hne hpieces
      rw [Str.essence_strip] at hess
      cases pieces with
      | nil => exact absurd hess.symm (by simpa using Str.essence_ne_nil (Str.strip_strip text) hne)
      | cons piece pieces =>
        obtain ⟨hfirst, hrest⟩ := List.forall_mem_cons.mp hstripped
        obtain ⟨hfirstNe, hrestNe⟩ := List.forall_mem_cons.mp hpieceNe
        have hjoin : join [] piece = piece := by rw [join, if_pos rfl, hfirst]
        rw [packFrom, if_neg (by simp), hjoin] at hpack
        obtain ⟨segments, hcovers⟩ := chunker.packFrom_covers
          (fun p hp => ⟨hrest p hp, hrestNe p hp⟩) hfirst (List.nil_append _).symm
          (Str.essence_ne_nil hfirst hfirstNe) hpack
        exact ⟨segments, by simpa [← hess] using hcovers⟩
  obtain ⟨segments, hcovers⟩ := hconserves
  exact ⟨⟨segments, hcovers⟩, hcovers.essence_eq⟩

theorem split_conserves_characters :
    characterChunker.Conserves " ab cd\n".toList
      [⟨0, "ab".toList, 2⟩, ⟨1, "b\ncd".toList, 4⟩] :=
  (@split_conserves characterChunker " ab cd\n".toList _ (by decide +kernel)).1

end YCStudio.TextChunker
