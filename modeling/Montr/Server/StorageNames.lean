import Montr.Lib.Paths
import Mathlib.Data.Nat.Digits.Defs
import Std.Data.String.ToNat

namespace Montr.Server

open Paths

/-!
# Names in the storage directory

The names under which the storage service keeps media and their thumbnails.

* `generateUniqueFilename` — the given name with a time and a random number before its extension;
* `proper_generateUniqueFilename` — whatever the given name is, the result is one name;
* `generateUniqueFilename_inj` — times and random numbers that differ make names that differ;
* `thumbnailName_inj` — and so do thumbnails, unless a given name was `..`.
-/

/-- `toString('hex')`. -/
def hex (bytes : List UInt8) : List Char :=
  bytes.flatMap fun b => [Nat.digitChar (b.toNat / 16), Nat.digitChar (b.toNat % 16)]

/-- `crypto.randomBytes(n)`. -/
abbrev RandomBytes (n : Nat) := { bytes : List UInt8 // bytes.length = n }

/-- What `Date.now()` and four random bytes put between name and extension. -/
def uniqueMark (timestamp : Nat) (random : RandomBytes 4) : Name :=
  '_' :: (Nat.toDigits 10 timestamp ++ '_' :: hex random)

def generateUniqueFilename (originalFilename : Path) (timestamp : Nat) (random : RandomBytes 4) :
    Name :=
  let ext := extname originalFilename
  basename originalFilename ext ++ (uniqueMark timestamp random ++ ext)

/-- `${basename}_thumb.jpg`. -/
def thumbnailName (mediaFilename : Path) : Name :=
  basename mediaFilename (extname mediaFilename) ++ "_thumb.jpg".toList

section

variable {c : Char} {originalFilename original' : Path} {timestamp timestamp' : Nat}
  {bytes bytes' : List UInt8} {random random' : RandomBytes 4} {a b : Name}

/-! ### Characters -/

theorem mem_hex (h : c ∈ hex bytes) : c.isAlphanum = true := by
  obtain ⟨byte, -, hc⟩ := List.mem_flatMap.mp h
  have hdigit : ∀ n < 16, (Nat.digitChar n).isAlphanum = true := by decide
  have hhigh := hdigit (byte.toNat / 16) (by have := byte.toNat_lt; omega)
  have hlow := hdigit (byte.toNat % 16) (by omega)
  rcases List.mem_pair.mp hc with rfl | rfl
  · exact hhigh
  · exact hlow

theorem length_hex : (hex bytes).length = 2 * bytes.length := by
  induction bytes with
  | nil => rfl
  | cons b bytes ih =>
    show (hex bytes).length + 2 = 2 * (bytes.length + 1)
    omega

theorem hex_injective (h : hex bytes = hex bytes') : bytes = bytes' := by
  have hchar : ∀ m < 16, ∀ n < 16, Nat.digitChar m = Nat.digitChar n → m = n := by decide
  induction bytes generalizing bytes' with
  | nil =>
    cases bytes' with
    | nil => rfl
    | cons b bytes' => exact absurd h (by simp [hex])
  | cons a bytes ih =>
    cases bytes' with
    | nil => exact absurd h (by simp [hex])
    | cons b bytes' =>
      have hcons : ∀ (x : UInt8) (l : List UInt8), hex (x :: l) =
        Nat.digitChar (x.toNat / 16) :: Nat.digitChar (x.toNat % 16) :: hex l := fun _ _ => rfl
      rw [hcons, hcons, List.cons.injEq, List.cons.injEq] at h
      have ha := a.toNat_lt
      have hb := b.toNat_lt
      have hhigh := hchar _ (by omega) _ (by omega) h.1
      have hlow := hchar _ (by omega) _ (by omega) h.2.1
      have hbyte : a = b := by
        apply UInt8.toNat_inj.mp
        omega
      rw [hbyte, ih h.2.2]

theorem mem_digits (h : c ∈ Nat.toDigits 10 timestamp) : c.isAlphanum = true := by
  have hdigit : c.isDigit = true := Nat.isDigit_of_mem_toDigits (by omega) (by omega) h
  simp [Char.isAlphanum, hdigit]

/-- The mark has underscores, digits and letters only. -/
theorem not_mem_uniqueMark (hc : c.isAlphanum = false) (hne : c ≠ '_') :
    c ∉ uniqueMark timestamp random := by
  unfold uniqueMark
  simp only [List.mem_cons, List.mem_append, not_or]
  refine ⟨hne, fun h => ?_, hne, fun h => ?_⟩
  · exact absurd (mem_digits h) (by simp [hc])
  · exact absurd (mem_hex h) (by simp [hc])

theorem no_slash_basename : '/' ∉ basename originalFilename (extname originalFilename) := by
  intro h
  apply no_slash_lastName originalFilename
  rw [← basename_extname]
  exact List.mem_append_left _ h

theorem no_slash_extname : '/' ∉ extname originalFilename := by
  intro h
  apply no_slash_lastName originalFilename
  rw [← basename_extname]
  exact List.mem_append_right _ h

theorem proper_hex (hne : bytes ≠ []) : Proper (hex bytes) := by
  have hdot : '.' ∉ hex bytes := fun h => absurd (mem_hex h) (by decide)
  have hslash : '/' ∉ hex bytes := fun h => absurd (mem_hex h) (by decide)
  constructor
  · intro h
    have hlength := congrArg List.length h
    rw [length_hex, List.length_nil] at hlength
    exact hne (List.length_eq_zero_iff.mp (by omega))
  · intro h
    exact hdot (by simp [h])
  · intro h
    exact hdot (by simp [h])
  · exact hslash

/-- **One name**, whatever it is made from. -/
theorem proper_generateUniqueFilename :
    Proper (generateUniqueFilename originalFilename timestamp random) := by
  have hunderscore : '_' ∈ generateUniqueFilename originalFilename timestamp random := by
    unfold generateUniqueFilename uniqueMark
    simp
  constructor
  · intro h
    exact absurd (h ▸ hunderscore) (by simp)
  · intro h
    exact absurd (h ▸ hunderscore) (by simp)
  · intro h
    exact absurd (h ▸ hunderscore) (by simp)
  · unfold generateUniqueFilename
    simp only [List.mem_append, not_or]
    exact ⟨no_slash_basename, not_mem_uniqueMark (by decide) (by decide), no_slash_extname⟩

theorem proper_thumbnailName : Proper (thumbnailName originalFilename) := by
  have hunderscore : '_' ∈ thumbnailName originalFilename := by
    unfold thumbnailName
    simp
  constructor
  · intro h
    exact absurd (h ▸ hunderscore) (by simp)
  · intro h
    exact absurd (h ▸ hunderscore) (by simp)
  · intro h
    exact absurd (h ▸ hunderscore) (by simp)
  · unfold thumbnailName
    rw [List.mem_append, not_or]
    exact ⟨no_slash_basename, by decide⟩

/-! ### Names that differ -/

/-- The mark is read back from behind: the random numbers have as many digits. -/
theorem append_uniqueMark_inj
    (h : a ++ uniqueMark timestamp random = b ++ uniqueMark timestamp' random') :
    timestamp = timestamp' ∧ random = random' := by
  unfold uniqueMark at h
  rw [← List.cons_append, ← List.cons_append, ← List.append_assoc, ← List.append_assoc] at h
  obtain ⟨hfront, hrandom⟩ := List.append_inj' h (by simp [length_hex, random.2, random'.2])
  have hunderscore : ∀ timestamp, '_' ∉ Nat.toDigits 10 timestamp := by
    intro timestamp hmem
    exact absurd (mem_digits hmem) (by decide)
  obtain ⟨-, hdigits⟩ := append_cons_last_inj (hunderscore _) (hunderscore _) hfront
  refine ⟨Nat.repr_injective (String.toList_injective ?_), ?_⟩
  · simpa [Nat.toList_repr] using hdigits
  · exact Subtype.ext (hex_injective (List.cons.inj hrandom).2)

theorem uniqueMark_ne_nil : a ++ uniqueMark timestamp random ≠ [] := by
  unfold uniqueMark
  simp

theorem uniqueMark_ne_dot : a ++ uniqueMark timestamp random ≠ ['.'] := by
  intro h
  have hunderscore : '_' ∈ a ++ uniqueMark timestamp random := by
    unfold uniqueMark
    simp
  exact absurd (h ▸ hunderscore) (by simp)

/-- The extension of a name begins with its last dot. A name without one has no dot, or its last
    dot is the first character or the second of `..`. -/
theorem extname_cases (originalFilename : Path) :
    (∃ after, extname originalFilename = '.' :: after ∧ '.' ∉ after) ∨
      extname originalFilename = [] ∧ ('.' ∉ lastName originalFilename ∨
        ∃ before after, lastName originalFilename = before ++ '.' :: after ∧ '.' ∉ after ∧
          (before = [] ∨ lastName originalFilename = ['.', '.'])) := by
  unfold extname
  by_cases hdot : '.' ∈ lastName originalFilename
  · obtain ⟨hcut, hafter⟩ := cutLastDot_spec hdot
    by_cases hcond : (cutLastDot (lastName originalFilename)).1 ≠ [] ∧
        lastName originalFilename ≠ ['.', '.']
    · exact .inl ⟨_, if_pos ⟨hdot, hcond⟩, hafter⟩
    · refine .inr ⟨if_neg fun h => hcond h.2, .inr ⟨_, _, hcut, hafter, ?_⟩⟩
      by_cases hdots : lastName originalFilename = ['.', '.']
      · exact .inr hdots
      · exact .inl (by simpa [hdots] using hcond)
  · exact .inr ⟨if_neg fun h => hdot h.1, .inl hdot⟩

/-- Without an extension, whatever stands before a last dot of a stored name is no mark. -/
theorem ne_of_extname_nil (hext : extname originalFilename = []) {after : Name}
    (hafter : '.' ∉ after) : a ++ (uniqueMark timestamp random ++ '.' :: after) ≠
      basename originalFilename [] ++ uniqueMark timestamp' random' := by
  have hmark : '.' ∉ uniqueMark timestamp' random' := not_mem_uniqueMark (by decide) (by decide)
  intro h
  rw [← List.append_assoc, basename_nil] at h
  rcases extname_cases originalFilename with ⟨after', hext', -⟩ | ⟨-, hnone | hlast⟩
  · exact absurd (hext.symm.trans hext') (by simp)
  · have hdot : '.' ∈ lastName originalFilename ++ uniqueMark timestamp' random' := by
      rw [← h]
      simp
    rcases List.mem_append.mp hdot with hdot | hdot
    · exact hnone hdot
    · exact hmark hdot
  · obtain ⟨before, after', hname, hafter', hbefore⟩ := hlast
    have hsplit : a ++ uniqueMark timestamp random ++ '.' :: after =
        before ++ '.' :: (after' ++ uniqueMark timestamp' random') := by
      rw [h, hname, List.append_assoc, List.cons_append]
    obtain ⟨hfront, -⟩ := append_cons_last_inj hafter (by simp [hafter', hmark]) hsplit
    rcases hbefore with rfl | hdots
    · exact uniqueMark_ne_nil hfront
    · have hbefore : before = ['.'] := by
        rw [hdots] at hname
        exact (@append_cons_last_inj '.' ['.'] before [] after' (by simp) hafter' hname).1.symm
      rw [hbefore] at hfront
      exact uniqueMark_ne_dot hfront

/-- **Names that differ**: equal names have one time and one random number. -/
theorem generateUniqueFilename_inj
    (h : generateUniqueFilename originalFilename timestamp random =
      generateUniqueFilename original' timestamp' random') :
    timestamp = timestamp' ∧ random = random' := by
  unfold generateUniqueFilename at h
  dsimp only at h
  rcases extname_cases originalFilename with ⟨after, hext, hafter⟩ | ⟨hext, -⟩ <;>
    rcases extname_cases original' with ⟨after', hext', hafter'⟩ | ⟨hext', -⟩
  · rw [hext, hext', ← List.append_assoc, ← List.append_assoc] at h
    exact append_uniqueMark_inj (append_cons_last_inj hafter hafter' h).1
  · rw [hext, hext', List.append_nil] at h
    exact absurd h (ne_of_extname_nil hext' hafter)
  · rw [hext, hext', List.append_nil] at h
    exact absurd h.symm (ne_of_extname_nil hext hafter')
  · rw [hext, hext', List.append_nil, List.append_nil] at h
    exact append_uniqueMark_inj h

/-- The stem of a stored name, unless it was made from `..`. -/
theorem stem_generateUniqueFilename (hdots : lastName originalFilename ≠ ['.', '.']) :
    basename (generateUniqueFilename originalFilename timestamp random)
        (extname (generateUniqueFilename originalFilename timestamp random)) =
      basename originalFilename (extname originalFilename) ++ uniqueMark timestamp random := by
  have hproper := @proper_generateUniqueFilename originalFilename timestamp random
  have hmark : '.' ∉ uniqueMark timestamp random := not_mem_uniqueMark (by decide) (by decide)
  have hwhole := basename_extname (generateUniqueFilename originalFilename timestamp random)
  rw [lastName_of_no_slash hproper.no_slash] at hwhole
  have hext : extname (generateUniqueFilename originalFilename timestamp random) =
      extname originalFilename := by
    rw [extname_of_no_slash hproper.no_slash]
    rcases extname_cases originalFilename with ⟨after, hext, hafter⟩ | ⟨hext, hnone | hlast⟩
    · have hname : generateUniqueFilename originalFilename timestamp random =
          (basename originalFilename (extname originalFilename) ++
            uniqueMark timestamp random) ++ '.' :: after := by
        unfold generateUniqueFilename
        rw [hext, List.append_assoc]
      rw [if_pos ⟨by simp [hname], by rw [hname, cutLastDot_eq hafter]; exact uniqueMark_ne_nil,
        hproper.ne_dotdot⟩, hname, cutLastDot_eq hafter, hext]
    · rw [hext, if_neg]
      rintro ⟨hdot, -⟩
      unfold generateUniqueFilename at hdot
      simp only [hext, List.append_nil, List.mem_append, basename_nil] at hdot
      exact hdot.elim hnone hmark
    · obtain ⟨before, after, hname, hafter, hbefore⟩ := hlast
      obtain rfl : before = [] := hbefore.resolve_right hdots
      have hcut : generateUniqueFilename originalFilename timestamp random =
          [] ++ '.' :: (after ++ uniqueMark timestamp random) := by
        unfold generateUniqueFilename
        simp [hext, hname]
      rw [hext, if_neg]
      rintro ⟨-, hne, -⟩
      rw [hcut, cutLastDot_eq (by simp [hafter, hmark])] at hne
      exact hne rfl
  rw [hext] at hwhole ⊢
  refine List.append_cancel_right (hwhole.trans ?_)
  exact (List.append_assoc _ _ _).symm

/-- **Thumbnails that differ.** -/
theorem thumbnailName_inj (hdots : lastName originalFilename ≠ ['.', '.'])
    (hdots' : lastName original' ≠ ['.', '.'])
    (h : thumbnailName (generateUniqueFilename originalFilename timestamp random) =
      thumbnailName (generateUniqueFilename original' timestamp' random')) :
    timestamp = timestamp' ∧ random = random' := by
  unfold thumbnailName at h
  rw [stem_generateUniqueFilename hdots, stem_generateUniqueFilename hdots'] at h
  exact append_uniqueMark_inj (List.append_cancel_right h)

end

end Montr.Server
