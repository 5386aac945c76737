import YCStudio.Library.Cuts
import YCStudio.Library.LineBreaks
import YCStudio.Services.KnowledgeBase

namespace YCStudio

structure ValidDirPath (dirPath : Str) : Prop where
  relative : dirPath.head? ≠ some '/'
  noTrailingSlash : dirPath.getLast? ≠ some '/'
  noBackslash : '\\' ∉ dirPath
  named : purePathParts dirPath ≠ []
  noParent : ['.', '.'] ∉ purePathParts dirPath
  noBlank : ∀ part ∈ purePathParts dirPath, part.strip ≠ []
  short : dirPath.length ≤ 200
  canonical : normaliseDirPath (some dirPath) = .ok (some dirPath)

-- The components of a client path, which may be written with slashes and backslashes.
def pathComponents (dirPath : Str) : List Str := dirPath.splitOnP fun c => c == '\\' || c == '/'

def TurnedAway (dirPath : Str) : Prop :=
  dirPath.strip = [] ∨ ['.', '.'] ∈ pathComponents dirPath ∨ 200 < (slashSeparated dirPath).length

def OnlyDots (dirPath : Str) : Prop :=
  (∀ component ∈ pathComponents dirPath, component = [] ∨ component = ['.']) ∧
    2 ≤ (pathComponents dirPath).count ['.']

def HasBlankComponent (dirPath : Str) : Prop :=
  ∃ component ∈ pathComponents dirPath, component ≠ [] ∧ component.strip = []

section SlashSeparated

variable (dirPath : Str)

def slashed : Str := dirPath.map fun c => if c = '\\' then '/' else c

theorem splitOn_slashed : (slashed dirPath).splitOn '/' = pathComponents dirPath := by
  have h : (dirPath.map fun c => if (c == '\\') = true then '/' else c).splitOn '/' =
      dirPath.splitOnP fun c => c == '\\' || c == '/' := Lines.splitOn_map_splitOnP dirPath
  simp only [beq_iff_eq] at h
  exact h

theorem noBackslash_slashSeparated : '\\' ∉ slashSeparated dirPath := by
  intro hmem
  obtain ⟨c, _, hc⟩ := List.mem_map.mp (Trim.mem_of_mem_strip (· == '/') hmem)
  split at hc
  · exact absurd hc (by decide)
  · contradiction

theorem strip_slashSeparated :
    Trim.strip (· == '/') (slashSeparated dirPath) = slashSeparated dirPath :=
  Trim.strip_strip (· == '/') _

theorem slashSeparated_eq_self {path : Str} (hbackslash : '\\' ∉ path)
    (hstrip : Trim.strip (· == '/') path = path) : slashSeparated path = path := by
  have hmap : path.map (fun c => if c = '\\' then '/' else c) = path := by
    conv_rhs => rw [← List.map_id path]
    refine List.map_congr_left fun c hc => ?_
    have hne : c ≠ '\\' := fun h => hbackslash (h ▸ hc)
    simp [hne]
  rw [slashSeparated, hmap, hstrip]

theorem filter_splitOn_slashSeparated :
    ((slashSeparated dirPath).splitOn '/').filter (· ≠ []) =
      (pathComponents dirPath).filter (· ≠ []) := by
  have hlines : ∀ line ∈ (slashed dirPath).splitOn '/', Trim.strip (· == '/') line = line := by
    intro line hline
    have habsent := Lines.not_mem_of_mem_splitOn hline
    refine Trim.strip_eq_self_of_forall _ fun c hc => ?_
    simpa using fun h : c = '/' => habsent (h ▸ hc)
  obtain ⟨k, m, hk⟩ := Lines.splitOn_strip hlines
  rw [← splitOn_slashed, hk]
  simp [slashSeparated, slashed]

theorem purePathParts_slashSeparated :
    purePathParts (slashSeparated dirPath) =
      (pathComponents dirPath).filter fun component => component ≠ [] ∧ component ≠ ['.'] := by
  have hboth (components : List Str) :
      components.filter (fun component => component ≠ [] ∧ component ≠ ['.']) =
        (components.filter (· ≠ [])).filter (· ≠ ['.']) := by
    rw [List.filter_filter]
    exact List.filter_congr fun component _ => by simp [Bool.and_comm]
  rw [purePathParts, Str.split_singleton, hboth, filter_splitOn_slashSeparated, ← hboth]

theorem parent_mem_iff :
    ['.', '.'] ∈ purePathParts (slashSeparated dirPath) ↔ ['.', '.'] ∈ pathComponents dirPath := by
  rw [purePathParts_slashSeparated, List.mem_filter]
  exact and_iff_left (by decide)

theorem subset_of_mem_purePathParts {path part : Str} (h : part ∈ purePathParts path) :
    ∀ c ∈ part, c ∈ path := by
  have hmem := List.mem_of_mem_filter h
  rw [Str.split_singleton] at hmem
  exact fun c hc => Lines.mem_of_mem_splitOn hmem hc

theorem head?_slashSeparated : (slashSeparated dirPath).head? ≠ some '/' := by
  intro h
  obtain ⟨rest, hrest⟩ := List.head?_eq_some_iff.mp h
  have hstrip := strip_slashSeparated dirPath
  rw [hrest] at hstrip
  exact Trim.head_not_blank _ hstrip (by simp)

theorem getLast?_slashSeparated : (slashSeparated dirPath).getLast? ≠ some '/' := by
  intro h
  obtain ⟨rest, hrest⟩ := List.getLast?_eq_some_iff.mp h
  have hstrip := strip_slashSeparated dirPath
  rw [hrest] at hstrip
  exact Trim.last_not_blank hstrip (by simp)

end SlashSeparated

section Normalised

variable {dirPath : Str}

def Nameless (path : Str) : Prop := path = [] ∨ path = ['.']

theorem normaliseDirPath_eq_some_iff {path : Str} :
    normaliseDirPath (some dirPath) = .ok (some path) ↔
      path = slashSeparated dirPath ∧ ¬ TurnedAway dirPath ∧ ¬ Nameless (slashSeparated dirPath) := by
  have hparent := parent_mem_iff dirPath
  by_cases hblank : dirPath.strip = []
  · have hnone : normaliseDirPath (some dirPath) = .ok none := by
      simp [normaliseDirPath, Option.filter, hblank]
    rw [hnone]
    simp [TurnedAway, hblank]
  · have hfilter : (some dirPath).filter (fun path => path.strip ≠ []) = some dirPath := by
      simp [Option.filter, hblank]
    rw [normaliseDirPath, hfilter]
    dsimp only
    split
    · next hrefused =>
      have hcase := hrefused.resolve_left (head?_slashSeparated dirPath)
      refine iff_of_false (by simp) fun ⟨_, haccepted, hnamed⟩ => ?_
      rcases hcase with hdots | hname
      · exact haccepted (Or.inr (Or.inl (hparent.mp hdots)))
      · exact hnamed hname
    · next hpassed =>
      obtain ⟨_, hrest⟩ := not_or.mp hpassed
      obtain ⟨hdots, hname⟩ := not_or.mp hrest
      split
      · next hlong =>
        exact iff_of_false (by simp) fun ⟨_, haccepted, _⟩ => haccepted (Or.inr (Or.inr hlong))
      · next hshort =>
        have haccepted : ¬ TurnedAway dirPath := by
          rintro (h | h | h)
          · exact hblank h
          · exact hdots (hparent.mpr h)
          · exact hshort h
        refine ⟨fun h => ⟨?_, haccepted, hname⟩, fun ⟨h, _, _⟩ => by rw [h]⟩
        exact (Option.some.inj (Except.ok.inj h)).symm

theorem purePathParts_eq_nil_iff (hnamed : ¬ Nameless (slashSeparated dirPath)) :
    purePathParts (slashSeparated dirPath) = [] ↔ OnlyDots dirPath := by
  have hfilter := filter_splitOn_slashSeparated dirPath
  have hdots : (∀ component ∈ pathComponents dirPath, component = [] ∨ component = ['.']) →
      ((slashSeparated dirPath).splitOn '/').filter (· ≠ []) =
        List.replicate ((pathComponents dirPath).count ['.']) ['.'] := by
    intro hall
    rw [hfilter, ← List.filter_beq]
    refine List.filter_congr fun component hcomponent => ?_
    rcases hall component hcomponent with rfl | rfl <;> decide
  rw [purePathParts_slashSeparated, List.filter_eq_nil_iff]
  constructor
  · intro hparts
    have hall : ∀ component ∈ pathComponents dirPath, component = [] ∨ component = ['.'] := by
      intro component hcomponent
      have hnone := hparts component hcomponent
      by_contra hother
      obtain ⟨hne, hne'⟩ := not_or.mp hother
      exact hnone (by simp [hne, hne'])
    refine ⟨hall, ?_⟩
    have hlines := hdots hall
    by_contra hfew
    have hcount : (pathComponents dirPath).count ['.'] = 0 ∨
        (pathComponents dirPath).count ['.'] = 1 := by omega
    rcases hcount with hzero | hone
    · rw [hzero] at hlines
      exact hnamed (Or.inl (Lines.eq_nil_of_filter_splitOn (strip_slashSeparated dirPath) hlines))
    · rw [hone] at hlines
      exact hnamed (Or.inr (Lines.eq_of_filter_splitOn (strip_slashSeparated dirPath) hlines))
  · rintro ⟨hall, _⟩ component hcomponent
    rcases hall component hcomponent with rfl | rfl <;> decide

theorem blank_part_iff :
    (∃ part ∈ purePathParts (slashSeparated dirPath), part.strip = []) ↔ HasBlankComponent dirPath := by
  rw [purePathParts_slashSeparated]
  constructor
  · rintro ⟨part, hpart, hblank⟩
    obtain ⟨hmem, hne⟩ := List.mem_filter.mp hpart
    exact ⟨part, hmem, (of_decide_eq_true hne).1, hblank⟩
  · rintro ⟨component, hcomponent, hne, hblank⟩
    refine ⟨component, List.mem_filter.mpr ⟨hcomponent, decide_eq_true ⟨hne, ?_⟩⟩, hblank⟩
    rintro rfl
    exact absurd hblank (by decide)

theorem not_nameless (h : OnlyDots dirPath ∨ HasBlankComponent dirPath) :
    ¬ Nameless (slashSeparated dirPath) := by
  have hfilter := filter_splitOn_slashSeparated dirPath
  have hempty : slashSeparated dirPath = [] →
      (pathComponents dirPath).filter (· ≠ []) = [] := fun hnil => by rw [← hfilter, hnil]; rfl
  have hdot : slashSeparated dirPath = ['.'] →
      (pathComponents dirPath).filter (· ≠ []) = [['.']] := fun hone => by rw [← hfilter, hone]; rfl
  rcases h with ⟨_, hcount⟩ | ⟨component, hcomponent, hne, hblank⟩
  · have hsame : ((pathComponents dirPath).filter (· ≠ [])).count ['.'] =
        (pathComponents dirPath).count ['.'] := List.count_filter (by decide)
    rintro (hnil | hone)
    · rw [hempty hnil] at hsame
      simp at hsame
      omega
    · rw [hdot hone] at hsame
      simp at hsame
      omega
  · have hmem : component ∈ (pathComponents dirPath).filter (· ≠ []) :=
      List.mem_filter.mpr ⟨hcomponent, by simpa using hne⟩
    rintro (hnil | hone)
    · rw [hempty hnil] at hmem
      cases hmem
    · rw [hdot hone, List.mem_singleton] at hmem
      rw [hmem] at hblank
      exact absurd hblank (by decide)

theorem validDirPath_slashSeparated (haccepted : ¬ TurnedAway dirPath)
    (hnamed : ¬ Nameless (slashSeparated dirPath))
    (hparts : purePathParts (slashSeparated dirPath) ≠ [])
    (hnoBlank : ∀ part ∈ purePathParts (slashSeparated dirPath), part.strip ≠ []) :
    ValidDirPath (slashSeparated dirPath) := by
  have hself : slashSeparated (slashSeparated dirPath) = slashSeparated dirPath :=
    slashSeparated_eq_self (noBackslash_slashSeparated dirPath) (strip_slashSeparated dirPath)
  have hnoParent : ['.', '.'] ∉ purePathParts (slashSeparated dirPath) :=
    fun h => haccepted (Or.inr (Or.inl ((parent_mem_iff dirPath).mp h)))
  have hshort : ¬ 200 < (slashSeparated dirPath).length :=
    fun h => haccepted (Or.inr (Or.inr h))
  have hstrip : (slashSeparated dirPath).strip ≠ [] := by
    intro hnil
    obtain ⟨part, hpart⟩ := List.exists_mem_of_ne_nil _ hparts
    have hchars := subset_of_mem_purePathParts hpart
    refine hnoBlank part hpart (Str.strip_eq_nil_iff.mpr fun c hc => ?_)
    exact Str.strip_eq_nil_iff.mp hnil c (hchars c hc)
  have hagain : ¬ TurnedAway (slashSeparated dirPath) := by
    rintro (h | h | h)
    · exact hstrip h
    · have hmem := (parent_mem_iff (slashSeparated dirPath)).mpr h
      rw [hself] at hmem
      exact hnoParent hmem
    · rw [hself] at h
      exact hshort h
  exact {
    relative := head?_slashSeparated dirPath
    noTrailingSlash := getLast?_slashSeparated dirPath
    noBackslash := noBackslash_slashSeparated dirPath
    named := hparts
    noParent := hnoParent
    noBlank := hnoBlank
    short := Nat.not_lt.mp hshort
    canonical := normaliseDirPath_eq_some_iff.mpr ⟨hself.symm, hagain, by rw [hself]; exact hnamed⟩ }

theorem normaliseDirPath_valid_iff (dirPath : Str) :
    (∀ path, normaliseDirPath (some dirPath) = .ok (some path) → ValidDirPath path) ↔
      TurnedAway dirPath ∨ ¬ (OnlyDots dirPath ∨ HasBlankComponent dirPath) := by
  constructor
  · intro hvalid
    by_contra hfails
    obtain ⟨haccepted, hdefect⟩ := not_or.mp hfails
    have hcase := not_not.mp hdefect
    have hnamed := not_nameless hcase
    have hpath := hvalid _ (normaliseDirPath_eq_some_iff.mpr ⟨rfl, haccepted, hnamed⟩)
    rcases hcase with hdots | hblank
    · exact hpath.named ((purePathParts_eq_nil_iff hnamed).mpr hdots)
    · obtain ⟨part, hpart, hnil⟩ := blank_part_iff.mpr hblank
      exact hpath.noBlank part hpart hnil
  · intro hcase path hpath
    obtain ⟨rfl, haccepted, hnamed⟩ := normaliseDirPath_eq_some_iff.mp hpath
    obtain ⟨hdots, hblank⟩ := not_or.mp (hcase.resolve_left haccepted)
    have hparts : purePathParts (slashSeparated dirPath) ≠ [] :=
      fun h => hdots ((purePathParts_eq_nil_iff hnamed).mp h)
    have hnoBlank : ∀ part ∈ purePathParts (slashSeparated dirPath), part.strip ≠ [] :=
      fun part hpart hnil => hblank (blank_part_iff.mp ⟨part, hpart, hnil⟩)
    exact validDirPath_slashSeparated haccepted hnamed hparts hnoBlank

theorem not_normaliseDirPath_valid :
    (normaliseDirPath (some "./.".toList) = .ok (some "./.".toList) ∧
      purePathParts "./.".toList = []) ∧
    normaliseDirPath (some " /".toList) = .ok (some " ".toList) ∧
      normaliseDirPath (some " ".toList) = .ok none := by
  decide +kernel

end Normalised

end YCStudio
