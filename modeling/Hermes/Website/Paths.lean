import Hermes.Library.Segments
import Hermes.Storage.Site

/-!
# The paths of a website

A path is kept as the segments which name something, joined by single slashes.  The normalisation
leaves such a path alone and makes one of every path it accepts.
-/

namespace Hermes.Website

open Storage

/-- A segment which names something: not empty, no dots, and none of the characters which a path
must not contain. -/
structure Plain (segment : List Char) : Prop where
  nonempty : segment ≠ []
  single : segment ≠ ['.']
  double : segment ≠ ['.', '.']
  slash : '/' ∉ segment
  backslash : '\\' ∉ segment
  nul : '\x00' ∉ segment

def segments (path : String) : List (List Char) := path.toList.splitOn '/'

structure Canonical (path : String) : Prop where
  nonempty : path.toList ≠ []
  plain : ∀ segment ∈ segments path, Plain segment

section Normalize

variable {raw path : String}

theorem normalizeSitePath_eq_ok :
    normalizeSitePath raw = .ok path ↔
      raw.toList ≠ [] ∧ '\x00' ∉ raw.toList ∧ '\\' ∉ raw.toList ∧ raw.toList.head? ≠ some '/' ∧
        ∃ kept, kept = (segments raw).filter (fun segment => segment ≠ [] ∧ segment ≠ ['.']) ∧
          ['.', '.'] ∉ kept ∧ kept ≠ [] ∧ path = String.ofList (['/'].intercalate kept) := by
  simp only [normalizeSitePath, segments]
  split
  next empty => simp [empty]
  next nonempty =>
  split
  next nul => simp [nul]
  next nul =>
  split
  next backslash => simp [backslash]
  next backslash =>
  split
  next absolute => simp [absolute]
  next relative =>
  split
  next traversal => simp_all
  next safe =>
  split
  next empty => simp_all
  next filled =>
    simp only [Except.ok.injEq]
    constructor
    · rintro rfl
      exact ⟨nonempty, nul, backslash, relative, _, rfl, safe, filled, rfl⟩
    · rintro ⟨-, -, -, -, kept, rfl, -, -, rfl⟩
      rfl

/-- Segments which are plain are what the joined path is made of. -/
theorem segments_ofList {kept : List (List Char)} (plain : ∀ segment ∈ kept, Plain segment)
    (filled : kept ≠ []) : segments (String.ofList (['/'].intercalate kept)) = kept := by
  rw [segments, String.toList_ofList]
  exact List.splitOn_intercalate '/' (fun segment listed => (plain segment listed).slash) filled

theorem canonical_ofList {kept : List (List Char)} (plain : ∀ segment ∈ kept, Plain segment)
    (filled : kept ≠ []) : Canonical (String.ofList (['/'].intercalate kept)) := by
  refine ⟨?_, by rwa [segments_ofList plain filled]⟩
  obtain ⟨first, rest, rfl⟩ := List.exists_cons_of_ne_nil filled
  obtain ⟨char, within⟩ := List.exists_mem_of_ne_nil first (plain first List.mem_cons_self).nonempty
  rw [String.toList_ofList]
  exact List.ne_nil_of_mem (Segments.mem_intercalate within List.mem_cons_self)

theorem canonical_of_normalize (accepted : normalizeSitePath raw = .ok path) : Canonical path := by
  obtain ⟨-, nul, backslash, -, kept, rfl, safe, filled, rfl⟩ := normalizeSitePath_eq_ok.mp accepted
  refine canonical_ofList (fun segment listed => ?_) filled
  obtain ⟨split, named⟩ := List.mem_filter.mp listed
  simp only [decide_eq_true_eq] at named
  exact {
    nonempty := named.1
    single := named.2
    double := by
      rintro rfl
      exact safe listed
    slash := Segments.notMem_of_splitOn split
    backslash := fun within => backslash (Segments.mem_of_splitOn within split)
    nul := fun within => nul (Segments.mem_of_splitOn within split) }

theorem normalize_of_canonical (canonical : Canonical path) :
    normalizeSitePath path = .ok path := by
  have whole : (segments path).filter (fun segment => segment ≠ [] ∧ segment ≠ ['.']) =
      segments path := by
    refine List.filter_eq_self.mpr fun segment listed => ?_
    have plain := canonical.plain segment listed
    simpa using ⟨plain.nonempty, plain.single⟩
  have joined : ['/'].intercalate (segments path) = path.toList := List.intercalate_splitOn '/'
  have absent {char : Char} (other : char ≠ '/')
      (unlisted : ∀ segment ∈ segments path, char ∉ segment) : char ∉ path.toList := by
    intro listed
    rw [← joined] at listed
    rcases Segments.mem_of_intercalate listed with same | ⟨segment, found, within⟩
    · exact other same
    · exact unlisted segment found within
  refine normalizeSitePath_eq_ok.mpr
    ⟨canonical.nonempty, ?_, ?_, ?_, segments path, whole.symm, ?_, ?_, ?_⟩
  · exact absent (by decide) fun segment listed => (canonical.plain segment listed).nul
  · exact absent (by decide) fun segment listed => (canonical.plain segment listed).backslash
  · intro absolute
    obtain ⟨rest, spelled⟩ := List.head?_eq_some_iff.mp absolute
    have first : [] ∈ segments path := by
      rw [segments, spelled, List.splitOn_cons_eq_if_modifyHead, if_pos (by decide)]
      exact List.mem_cons_self
    exact (canonical.plain [] first).nonempty rfl
  · exact fun listed => (canonical.plain _ listed).double rfl
  · exact List.splitOn_ne_nil _ _
  · rw [joined, String.ofList_toList]

theorem normalize_idempotent (accepted : normalizeSitePath raw = .ok path) :
    normalizeSitePath path = .ok path :=
  normalize_of_canonical (canonical_of_normalize accepted)

theorem length_normalize_le (accepted : normalizeSitePath raw = .ok path) :
    path.toList.length ≤ raw.toList.length := by
  obtain ⟨-, -, -, -, kept, rfl, -, -, rfl⟩ := normalizeSitePath_eq_ok.mp accepted
  have whole : ['/'].intercalate (segments raw) = raw.toList := List.intercalate_splitOn '/'
  have shorter := @Segments.length_intercalate_le _ '/' _ _ (List.filter_sublist
    (p := fun segment => segment ≠ [] ∧ segment ≠ ['.']) (l := segments raw))
  rwa [whole, ← String.toList_ofList (l := ['/'].intercalate _)] at shorter

end Normalize

end Hermes.Website
