import Mandala.Engine.BuildProgress
import Mandala.Forest.BuildForest
import Mathlib.Data.List.TakeWhile

/-!
# The two names of a derivation

The engine and the build forest both take the directory, the extension and the
hash off a path.  Where the extension is missing, the engine goes on with the
last component and the forest with the whole path.
-/

namespace Mandala.Engine

/-- What both make of the text they go on with. -/
def afterHash (base : List Char) : String :=
  let hash := base.takeWhile (· ≠ '-')
  if base.contains '-' ∧ (String.ofList hash).utf8ByteSize = 32 then
    String.ofList (base.drop (hash.length + 1))
  else String.ofList base

/-- The last component of a path. -/
def basename (path : List Char) : List Char :=
  (path.reverse.takeWhile (· ≠ '/')).reverse

theorem derivationName_eq (path : String) :
    derivationName path = afterHash
      (((basename path.toList).dropSuffix? ".drv".toList).getD
        (basename path.toList)) := rfl

theorem forest_derivationName_eq (path : String) :
    Forest.derivationName path = afterHash
      (((basename path.toList).dropSuffix? ".drv".toList).getD path.toList) := rfl

theorem takeWhile_dash {hash rest : List Char} (hhash : '-' ∉ hash) :
    (hash ++ '-' :: rest).takeWhile (· ≠ '-') = hash := by
  induction hash with
  | nil => simp
  | cons c hash ih =>
      have hc : c ≠ '-' := fun heq => hhash (heq ▸ List.mem_cons_self)
      rw [List.cons_append, List.takeWhile_cons, if_pos (by simpa using hc),
        ih fun hmem => hhash (List.mem_cons_of_mem _ hmem)]

theorem afterHash_append {hash name : List Char} (hhash : '-' ∉ hash) :
    afterHash (hash ++ '-' :: name) =
      if (String.ofList hash).utf8ByteSize = 32 then String.ofList name
      else String.ofList (hash ++ '-' :: name) := by
  have hdrop : (hash ++ '-' :: name).drop (hash.length + 1) = name := by
    rw [← List.drop_drop, List.drop_left, List.drop_one, List.tail_cons]
  simp only [afterHash, takeWhile_dash hhash, hdrop]
  simp

theorem afterHash_of_no_dash {base : List Char} (hbase : '-' ∉ base) :
    afterHash base = String.ofList base := by
  simp [afterHash, hbase]

/-- The text as it is, or what follows its first dash. -/
theorem afterHash_cases (base : List Char) :
    afterHash base = String.ofList base ∨
      ∃ hash name, '-' ∉ hash ∧ base = hash ++ '-' :: name ∧
        (String.ofList hash).utf8ByteSize = 32 ∧ afterHash base = String.ofList name := by
  by_cases hdash : '-' ∈ base
  · obtain ⟨hash, name, rfl, hhash⟩ := List.eq_append_cons_of_mem hdash
    by_cases hsize : (String.ofList hash).utf8ByteSize = 32
    · exact .inr ⟨hash, name, hhash, rfl, hsize, by rw [afterHash_append hhash, if_pos hsize]⟩
    · exact .inl (by rw [afterHash_append hhash, if_neg hsize])
  · exact .inl (afterHash_of_no_dash hdash)

theorem basename_of_no_slash {path : List Char} (hslash : '/' ∉ path) :
    basename path = path := by
  have hall : path.reverse.takeWhile (· ≠ '/') = path.reverse := by
    rw [List.takeWhile_eq_self_iff]
    intro c hc
    have hne : c ≠ '/' := fun heq => hslash (heq ▸ List.mem_reverse.mp hc)
    simpa using hne
  rw [basename, hall, List.reverse_reverse]

/-- A path with a slash is a directory and its last component. -/
theorem exists_directory {path : List Char} (hslash : '/' ∈ path) :
    ∃ directory, path = directory ++ '/' :: basename path := by
  have hsplit := @List.takeWhile_append_dropWhile _ (· ≠ '/') path.reverse
  have hrest : path.reverse.dropWhile (· ≠ '/') ≠ [] := by
    intro hnil
    rw [List.dropWhile_eq_nil_iff] at hnil
    simpa using hnil '/' (List.mem_reverse.mpr hslash)
  have hhead := List.head_dropWhile_not (· ≠ '/') hrest
  cases hcases : path.reverse.dropWhile (· ≠ '/') with
  | nil => exact absurd hcases hrest
  | cons c rest =>
      simp only [hcases, List.head_cons] at hhead
      have hc : c = '/' := by simpa using hhead
      have hwhole := congrArg List.reverse hsplit
      rw [hcases, hc, List.reverse_append, List.reverse_cons, List.reverse_reverse,
        List.append_assoc] at hwhole
      exact ⟨rest.reverse, hwhole.symm⟩

/-- A directory in front is never taken off with the hash alone. -/
theorem afterHash_directory_ne (directory base : List Char) :
    afterHash (directory ++ '/' :: base) ≠ afterHash base := by
  intro hsame
  obtain hwhole | ⟨hash, name, -, hsplit, hsize, hwhole⟩ :=
    afterHash_cases (directory ++ '/' :: base)
  · obtain hbase | ⟨hash', name', -, hsplit', -, hbase⟩ := afterHash_cases base
    · rw [hwhole, hbase, String.ofList_inj] at hsame
      have hlength := congrArg List.length hsame
      simp at hlength
      omega
    · rw [hwhole, hbase, String.ofList_inj, hsplit'] at hsame
      have hlength := congrArg List.length hsame
      simp at hlength
      omega
  · obtain hbase | ⟨hash', name', -, hsplit', hsize', hbase⟩ := afterHash_cases base
    · -- the name would begin right after a dash and right after a slash
      rw [hwhole, hbase, String.ofList_inj] at hsame
      subst hsame
      have hends := List.append_inj_right' hsplit rfl
      simp at hends
    · rw [hwhole, hbase, String.ofList_inj] at hsame
      subst hsame
      rw [hsplit', ← List.cons_append, ← List.append_assoc] at hsplit
      have hhash := List.append_inj_left' hsplit rfl
      -- both hashes have thirty-two bytes, and the slash is one more
      rw [← hhash, String.ofList_append, String.utf8ByteSize_append] at hsize
      have hslash : ("/" ++ String.ofList hash').utf8ByteSize = 33 := by
        rw [String.utf8ByteSize_append, hsize']
        rfl
      have hcons : String.ofList ('/' :: hash') = "/" ++ String.ofList hash' := by
        rw [← @String.ofList_toList "/", ← String.ofList_append]
        rfl
      rw [hcons] at hsize
      omega

theorem basename_suffix (path : List Char) : basename path <:+ path := by
  have hprefix := List.takeWhile_prefix (l := path.reverse) (· ≠ '/')
  simpa [basename] using List.reverse_suffix.mpr hprefix

/-- The extension is on a path exactly where it is on the last component. -/
theorem suffix_basename_iff {extension path : List Char} (hslash : '/' ∉ extension) :
    extension <:+ basename path ↔ extension <:+ path := by
  refine ⟨fun hsuffix => hsuffix.trans (basename_suffix path), fun hsuffix => ?_⟩
  by_cases hpath : '/' ∈ path
  · obtain ⟨directory, hsplit⟩ := exists_directory hpath
    have hlast : '/' :: basename path <:+ path := ⟨directory, hsplit.symm⟩
    rcases List.suffix_or_suffix_of_suffix hsuffix hlast with hshort | hlong
    · rcases List.suffix_cons_iff.mp hshort with heq | hshort
      · exact absurd (heq ▸ List.mem_cons_self) hslash
      · exact hshort
    · exact absurd (hlong.subset List.mem_cons_self) hslash
  · rwa [basename_of_no_slash hpath]

theorem dropSuffix?_eq_none_iff {text extension : List Char} :
    text.dropSuffix? extension = none ↔ ¬ extension <:+ text := by
  constructor
  · rintro hnone ⟨front, hfront⟩
    have hsome := List.dropSuffix?_eq_some_iff.mpr ⟨extension, hfront.symm, beq_self_eq_true _⟩
    rw [hnone] at hsome
    contradiction
  · intro hno
    cases hdrop : text.dropSuffix? extension with
    | none => rfl
    | some front =>
        obtain ⟨rest, hrest, hsame⟩ := List.dropSuffix?_eq_some_iff.mp hdrop
        exact absurd ⟨front, eq_of_beq hsame ▸ hrest.symm⟩ hno

/-- The two names agree exactly where the path has the extension or no directory. -/
theorem derivationName_agrees_iff (path : String) :
    derivationName path = Forest.derivationName path ↔
      ".drv".toList <:+ path.toList ∨ '/' ∉ path.toList := by
  have hextension := @suffix_basename_iff ".drv".toList path.toList (by decide)
  rw [derivationName_eq, forest_derivationName_eq]
  constructor
  · intro hsame
    by_contra hneither
    rw [not_or, not_not] at hneither
    obtain ⟨hno, hslash⟩ := hneither
    rw [dropSuffix?_eq_none_iff.mpr (hextension.not.mpr hno), Option.getD_none,
      Option.getD_none] at hsame
    obtain ⟨directory, hsplit⟩ := exists_directory hslash
    apply afterHash_directory_ne directory (basename path.toList)
    rw [← hsplit, hsame]
  · rintro (hsuffix | hslash)
    · have hsome := dropSuffix?_eq_none_iff.not.mpr (not_not.mpr (hextension.mpr hsuffix))
      obtain ⟨front, hfront⟩ := Option.ne_none_iff_exists'.mp hsome
      rw [hfront, Option.getD_some, Option.getD_some]
    · rw [basename_of_no_slash hslash]

/-- An output path in the store. -/
theorem derivationName_disagrees :
    ¬ ∀ path, derivationName path = Forest.derivationName path := by
  intro hall
  have hagree := hall "/nix/store/0123456789abcdfghijklmnpqrsvwxyz-foo"
  revert hagree
  decide +kernel

end Mandala.Engine
