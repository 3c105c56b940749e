import Mathlib.Data.List.Infix
import Mathlib.Data.List.TakeWhile
import Mathlib.Logic.Basic

namespace Montr.Paths

/-!
# POSIX paths as texts

Paths as a file server handles them: texts, taken apart at `/` and put together again without a
look at the file system.

* `normalize`, `join`, `resolve`, `basename`, `extname` — the functions of Node's `path` module;
* `Proper` — a name that a directory can have an entry of;
* `render` — the absolute path of some names, and `names`, its inverse;
* `resolve_render` — resolving a text against a directory is a walk from its names;
* `prefix_render_iff` — a path begins with another and a `/` exactly when its names do;
* `basename_extname` — a name is what is left without its extension, and the extension.
-/

abbrev Name := List Char
abbrev Path := List Char

/-- What stands between the slashes. -/
def segments (p : Path) : List Name := p.splitOn '/'

/-- An entry of a directory. -/
structure Proper (n : Name) : Prop where
  ne_nil : n ≠ []
  ne_dot : n ≠ ['.']
  ne_dotdot : n ≠ ['.', '.']
  no_slash : '/' ∉ n

/-! ### Normal forms -/

/-- One more segment; `names` has the last name first.  With `above` a `..` may lead out. -/
def enter (above : Bool) (names : List Name) (segment : Name) : List Name :=
  if segment = [] ∨ segment = ['.'] then names
  else if segment = ['.', '.'] then
    match names with
    | [] => if above then [['.', '.']] else []
    | n :: rest => if n = ['.', '.'] then ['.', '.'] :: n :: rest else rest
  else segment :: names

def walk (above : Bool) (names : List Name) (p : Path) : List Name :=
  (segments p).foldl (enter above) names

def normalizeString (p : Path) (above : Bool) : Path :=
  ['/'].intercalate (walk above [] p).reverse

def isAbsolute (p : Path) : Bool := p.head? == some '/'

def normalize (p : Path) : Path :=
  if p = [] then ['.']
  else
    let trailingSeparator := p.getLast? == some '/'
    let path := normalizeString p (!isAbsolute p)
    if path = [] then
      if isAbsolute p then ['/'] else if trailingSeparator then ['.', '/'] else ['.']
    else
      let path := if trailingSeparator then path ++ ['/'] else path
      if isAbsolute p then '/' :: path else path

def join (args : List Path) : Path := normalize (['/'].intercalate (args.filter (· ≠ [])))

/-- The arguments from the last to the first, as far as one that is absolute. -/
def collect : List Path → Path → Path
  | [], resolved => resolved
  | p :: args, resolved =>
    if p = [] then collect args resolved
    else if isAbsolute p then p ++ '/' :: resolved
    else collect args (p ++ '/' :: resolved)

/-- `resolve`, in a process whose working directory is `cwd`. -/
def resolve (cwd : Path) (args : List Path) : Path :=
  '/' :: normalizeString (collect (args.reverse ++ [cwd]) []) false

/-- The last name of a path, trailing slashes aside. -/
def lastName (p : Path) : Name := (((segments p).filter (· ≠ [])).getLast?).getD []

/-- What stands in a name before its last dot, and after. -/
def cutLastDot (n : Name) : Name × Name :=
  ((n.reverse.dropWhile (· ≠ '.')).tail.reverse, (n.reverse.takeWhile (· ≠ '.')).reverse)

def extname (p : Path) : Name :=
  let n := lastName p
  if '.' ∈ n ∧ (cutLastDot n).1 ≠ [] ∧ n ≠ ['.', '.'] then '.' :: (cutLastDot n).2 else []

def basename (p ext : Path) : Name :=
  let n := lastName p
  if ext = [] then n
  else if p = ext then []
  else if ext <:+ n ∧ ext ≠ n then n.take (n.length - ext.length) else n

/-! ### Absolute paths by their names -/

/-- The absolute path of some names. -/
def render (names : List Name) : Path := '/' :: ['/'].intercalate names

/-- The names of an absolute path. -/
def names (p : Path) : List Name := (walk false [] p).reverse

section

variable {above : Bool} {a b : Path} {ns ms : List Name} {n : Name} {cwd p base : Path}

theorem segments_append_slash : segments (a ++ '/' :: b) = segments a ++ segments b :=
  List.splitOn_append_cons_self a b

theorem segments_of_no_slash (h : '/' ∉ n) : segments n = [n] := List.splitOn_eq_singleton h

theorem not_mem_segments (p : Path) : ∀ n ∈ segments p, '/' ∉ n := by
  intro n hn
  induction p generalizing n with
  | nil =>
    obtain rfl : n = [] := by simpa [segments] using hn
    exact List.not_mem_nil
  | cons c p ih =>
    unfold segments at hn ih
    rw [List.splitOn_cons_eq_if_modifyHead] at hn
    by_cases hc : c = '/'
    · rw [if_pos (by simpa using hc)] at hn
      rcases List.mem_cons.mp hn with rfl | hn
      · exact List.not_mem_nil
      · exact ih n hn
    · rw [if_neg (by simpa using hc)] at hn
      cases hsplit : p.splitOn '/' with
      | nil => exact absurd hsplit (List.splitOn_ne_nil _ _)
      | cons m ms =>
        rw [hsplit, List.modifyHead_cons] at hn
        rcases List.mem_cons.mp hn with rfl | hn
        · rw [List.mem_cons, not_or]
          exact ⟨fun h => hc h.symm, ih m (by simp [hsplit])⟩
        · exact ih n (by simp [hsplit, hn])

theorem walk_nil : walk above ns [] = ns := rfl

theorem walk_append_slash : walk above ns (a ++ '/' :: b) = walk above (walk above ns a) b := by
  unfold walk
  rw [segments_append_slash, List.foldl_append]

/-- A slash at the end changes nothing. -/
theorem walk_trailing : walk above ns (p ++ ['/']) = walk above ns p := by
  rw [walk_append_slash, walk_nil]

theorem enter_proper (h : Proper n) : enter above ns n = n :: ns := by
  unfold enter
  rw [if_neg (by simp [h.ne_nil, h.ne_dot]), if_neg h.ne_dotdot]

/-- A walk from the root meets proper names only. -/
theorem proper_enter (hns : ∀ m ∈ ns, Proper m) (hn : '/' ∉ n) :
    ∀ m ∈ enter false ns n, Proper m := by
  unfold enter
  split
  · exact hns
  next hsegment =>
    split
    · cases ns with
      | nil => simp
      | cons m rest =>
        have hm := (hns m List.mem_cons_self).ne_dotdot
        simp only [if_neg hm]
        exact fun x hx => hns x (List.mem_cons_of_mem _ hx)
    next hdotdot =>
      rw [not_or] at hsegment
      intro m hm
      rcases List.mem_cons.mp hm with rfl | hm
      · exact ⟨hsegment.1, hsegment.2, hdotdot, hn⟩
      · exact hns m hm

theorem proper_walk (hns : ∀ m ∈ ns, Proper m) (p : Path) : ∀ m ∈ walk false ns p, Proper m := by
  unfold walk
  apply List.foldlRecOn (motive := fun ms => ∀ m ∈ ms, Proper m) _ _ hns
  intro ms hms n hn
  exact proper_enter hms (not_mem_segments p n hn)

theorem proper_names (p : Path) : ∀ n ∈ names p, Proper n := fun n hn =>
  proper_walk (by simp) p n (List.mem_reverse.mp hn)

theorem segments_render : segments (render ns) = [] :: segments (['/'].intercalate ns) :=
  @segments_append_slash [] _

theorem foldl_enter_proper (hms : ∀ m ∈ ms, Proper m) :
    ms.foldl (enter above) ns = ms.reverse ++ ns := by
  induction ms generalizing ns with
  | nil => rfl
  | cons m ms ih =>
    rw [List.foldl_cons, enter_proper (hms m List.mem_cons_self),
      ih fun x hx => hms x (List.mem_cons_of_mem _ hx)]
    simp

/-- Proper names are read back as they are. -/
theorem walk_intercalate (hms : ∀ m ∈ ms, Proper m) :
    walk above ns (['/'].intercalate ms) = ms.reverse ++ ns := by
  cases ms with
  | nil => rfl
  | cons m ms =>
    unfold walk segments
    rw [List.splitOn_intercalate _ (fun l hl => (hms l hl).no_slash) (List.cons_ne_nil _ _)]
    exact foldl_enter_proper hms

theorem walk_render (hms : ∀ m ∈ ms, Proper m) : walk above ns (render ms) = ms.reverse ++ ns := by
  rw [← walk_intercalate hms]
  exact @walk_append_slash above [] (['/'].intercalate ms) ns

theorem names_render (hms : ∀ m ∈ ms, Proper m) : names (render ms) = ms := by
  unfold names
  rw [walk_render hms, List.append_nil, List.reverse_reverse]

theorem render_injective (hns : ∀ n ∈ ns, Proper n) (hms : ∀ m ∈ ms, Proper m)
    (h : render ns = render ms) : ns = ms := by
  rw [← names_render hns, h, names_render hms]

theorem isAbsolute_render : isAbsolute (render ns) = true := rfl

theorem ne_nil_of_isAbsolute (h : isAbsolute p = true) : p ≠ [] := by
  rintro rfl
  exact absurd h (by decide)

/-! ### Resolving -/

/-- Where a text leads to from a directory. -/
def target (base : List Name) (p : Path) : List Name :=
  if isAbsolute p then names p else (walk false base.reverse p).reverse

theorem resolve_dir (h : isAbsolute base = true) : resolve cwd [base] = render (names base) := by
  unfold resolve normalizeString names
  simp only [List.reverse_singleton, List.singleton_append, collect,
    if_neg (ne_nil_of_isAbsolute h), h, if_true]
  rw [walk_trailing]
  rfl

/-- **Resolving is walking.** -/
theorem resolve_pair (h : isAbsolute base = true) :
    resolve cwd [base, p] = render (target (names base) p) := by
  have hbase := ne_nil_of_isAbsolute h
  unfold resolve normalizeString target
  by_cases hp : p = []
  · subst hp
    simp only [List.reverse_cons, List.reverse_nil, List.nil_append, List.cons_append, collect,
      if_true, if_neg hbase, h]
    rw [walk_trailing]
    simp [isAbsolute, walk_nil, names, render]
  · by_cases habsolute : isAbsolute p = true
    · simp only [List.reverse_cons, List.reverse_nil, List.nil_append, List.cons_append, collect,
        if_neg hp, habsolute, if_true]
      rw [walk_trailing]
      rfl
    · simp only [List.reverse_cons, List.reverse_nil, List.nil_append, List.cons_append, collect,
        if_neg hp, if_neg habsolute, if_neg hbase, h, if_true]
      rw [walk_append_slash, walk_trailing, names, List.reverse_reverse]
      rfl

theorem proper_target (hbase : ∀ n ∈ ns, Proper n) (p : Path) : ∀ n ∈ target ns p, Proper n := by
  unfold target
  split
  · exact proper_names p
  · intro n hn
    refine proper_walk (fun m hm => hbase m ?_) p n (List.mem_reverse.mp hn)
    exact List.mem_reverse.mp hm

/-! ### Paths from names -/

theorem isAbsolute_intercalate (hms : ∀ m ∈ ms, Proper m) :
    isAbsolute (['/'].intercalate ms) = false := by
  cases ms with
  | nil => rfl
  | cons m rest =>
    have hm := hms m List.mem_cons_self
    cases m with
    | nil => exact absurd rfl hm.ne_nil
    | cons c m =>
      have hc : c ≠ '/' := fun heq => hm.no_slash (by simp [heq])
      cases rest <;> simp [isAbsolute, List.intercalate, hc]

/-- A relative path of proper names leads down. -/
theorem target_intercalate (hms : ∀ m ∈ ms, Proper m) :
    target ns (['/'].intercalate ms) = ns ++ ms := by
  unfold target
  rw [isAbsolute_intercalate hms, if_neg (by simp), walk_intercalate hms]
  simp

theorem intercalate_ne_nil (hms : ∀ m ∈ ms, Proper m) (h : ms ≠ []) :
    ['/'].intercalate ms ≠ [] := by
  cases ms with
  | nil => exact absurd rfl h
  | cons m rest =>
    have hm := (hms m List.mem_cons_self).ne_nil
    cases rest <;> simp [hm]

theorem getLast_intercalate (hms : ∀ m ∈ ms, Proper m) :
    (['/'].intercalate ms).getLast? ≠ some '/' := by
  induction ms with
  | nil => simp
  | cons m rest ih =>
    cases rest with
    | nil =>
      intro h
      rw [List.intercalate_singleton] at h
      exact (hms m List.mem_cons_self).no_slash (List.mem_of_getLast? h)
    | cons n rest =>
      have hrest := fun x hx => hms x (List.mem_cons_of_mem m hx)
      rw [List.intercalate_cons_cons,
        List.getLast?_append_of_ne_nil _ (intercalate_ne_nil hrest (List.cons_ne_nil _ _))]
      exact ih hrest

/-- Names that are joined make the path of all of them. -/
theorem join_intercalate (hms : ∀ m ∈ ms, Proper m) (h : ms ≠ []) :
    join ms = ['/'].intercalate ms := by
  have hfilter : ms.filter (· ≠ []) = ms := by
    rw [List.filter_eq_self]
    intro m hm
    simpa using (hms m hm).ne_nil
  have hne := intercalate_ne_nil hms h
  unfold join normalize normalizeString
  rw [hfilter, if_neg hne, isAbsolute_intercalate hms, walk_intercalate hms]
  simp [hne, getLast_intercalate hms]

/-- An absolute path without a slash at its end is normalised by its names. -/
theorem normalize_absolute (h : isAbsolute p = true) (hlast : p.getLast? ≠ some '/')
    (hne : names p ≠ []) : normalize p = render (names p) := by
  have hpath : normalizeString p false ≠ [] := intercalate_ne_nil (proper_names p) hne
  unfold normalize
  rw [if_neg (ne_nil_of_isAbsolute h), h]
  simp [hpath, hlast]
  rfl

theorem join_render (hns : ∀ n ∈ ns, Proper n) (hms : ∀ m ∈ ms, Proper m) (h : ms ≠ []) :
    join [render ns, ['/'].intercalate ms] = render (ns ++ ms) := by
  have hne := intercalate_ne_nil hms h
  have hjoined : ['/'].intercalate ([render ns, ['/'].intercalate ms].filter (· ≠ [])) =
      (render ns ++ ['/']) ++ ['/'].intercalate ms := by
    simp [render, hne]
  have hnames : names ((render ns ++ ['/']) ++ ['/'].intercalate ms) = ns ++ ms := by
    unfold names
    rw [List.append_assoc, List.singleton_append, walk_append_slash, walk_render hns,
      walk_intercalate hms]
    simp
  unfold join
  rw [hjoined, normalize_absolute rfl, hnames]
  · rw [List.getLast?_append_of_ne_nil _ hne]
    exact getLast_intercalate hms
  · rw [hnames]
    simp [h]

/-! ### Prefixes -/

theorem render_eq_flatMap (h : ns ≠ []) : render ns = ns.flatMap fun n => '/' :: n := by
  unfold render
  induction ns with
  | nil => exact absurd rfl h
  | cons n ns ih =>
    cases ns with
    | nil => simp
    | cons m ms =>
      rw [List.intercalate_cons_cons, List.flatMap_cons, ← ih (List.cons_ne_nil _ _)]
      simp

/-- A name ends at the first slash. -/
theorem append_slash_prefix_iff {m : Name} (hn : '/' ∉ n) (hm : '/' ∉ m)
    (hb : ∀ c ∈ b.head?, c = '/') :
    n ++ '/' :: a <+: m ++ b ↔ n = m ∧ '/' :: a <+: b := by
  induction n generalizing m with
  | nil =>
    cases m with
    | nil => simp
    | cons c m =>
      have hc : '/' ≠ c := fun heq => hm (heq ▸ List.mem_cons_self)
      simp [List.cons_prefix_cons, hc]
  | cons d n ih =>
    have hd : d ≠ '/' := fun heq => hn (by simp [heq])
    cases m with
    | nil =>
      cases b with
      | nil => simp
      | cons c b =>
        obtain rfl : c = '/' := hb c rfl
        simp [List.cons_prefix_cons, hd]
    | cons c m =>
      rw [List.cons_append, List.cons_append, List.cons_prefix_cons, List.cons.injEq,
        ih (fun h => hn (List.mem_cons_of_mem _ h)) fun h => hm (List.mem_cons_of_mem _ h)]
      exact and_assoc.symm

theorem head_flatMap : ∀ c ∈ (ns.flatMap fun n => '/' :: n).head?, c = '/' := by
  cases ns with
  | nil => simp
  | cons n ns => simp

/-- **Below a directory.**  A path begins with that of a directory and a slash exactly when its
    names begin with those of the directory and go on. -/
theorem prefix_render_iff (hns : ∀ n ∈ ns, Proper n) (hms : ∀ m ∈ ms, Proper m) (h : ns ≠ []) :
    render ns ++ ['/'] <+: render ms ↔ ∃ m rest, ms = ns ++ m :: rest := by
  have hflat : ∀ ns : List Name, (∀ n ∈ ns, Proper n) → ∀ ms : List Name, (∀ m ∈ ms, Proper m) →
      ((ns.flatMap fun n => '/' :: n) ++ ['/'] <+: (ms.flatMap fun n => '/' :: n) ↔
        ∃ m rest, ms = ns ++ m :: rest) := by
    intro ns hns
    induction ns with
    | nil =>
      intro ms hms
      cases ms with
      | nil => simp
      | cons m rest => simp [List.cons_prefix_cons]
    | cons n ns ih =>
      intro ms hms
      cases ms with
      | nil => simp
      | cons m rest =>
        have hstart : ∃ l, (ns.flatMap fun n => '/' :: n) ++ ['/'] = '/' :: l := by
          cases ns with
          | nil => exact ⟨[], rfl⟩
          | cons x xs => exact ⟨_, rfl⟩
        obtain ⟨l, hl⟩ := hstart
        have hrest := ih (fun x hx => hns x (List.mem_cons_of_mem _ hx)) rest
          fun x hx => hms x (List.mem_cons_of_mem _ hx)
        rw [hl] at hrest
        rw [List.flatMap_cons, List.flatMap_cons, List.cons_append, List.cons_append,
          List.cons_append, List.cons_prefix_cons, List.append_assoc, hl,
          append_slash_prefix_iff (hns n List.mem_cons_self).no_slash
            (hms m List.mem_cons_self).no_slash head_flatMap, hrest]
        simp only [true_and, List.cons_append, List.cons.injEq]
        constructor
        · rintro ⟨rfl, x, xs, rfl⟩
          exact ⟨x, xs, rfl, rfl⟩
        · rintro ⟨x, xs, rfl, rfl⟩
          exact ⟨rfl, x, xs, rfl⟩
  cases ms with
  | nil =>
    rw [render_eq_flatMap h]
    cases ns with
    | nil => exact absurd rfl h
    | cons n ns =>
      have hn := (hns n List.mem_cons_self).ne_nil
      simp [render, List.cons_prefix_cons, hn]
  | cons m rest =>
    rw [render_eq_flatMap h, render_eq_flatMap (List.cons_ne_nil _ _)]
    exact hflat ns hns _ hms

/-! ### The last name -/

theorem lastName_of_no_slash (h : '/' ∉ n) : lastName n = n := by
  unfold lastName
  rw [segments_of_no_slash h]
  cases n <;> rfl

theorem no_slash_lastName (p : Path) : '/' ∉ lastName p := by
  unfold lastName
  cases hlast : ((segments p).filter (· ≠ [])).getLast? with
  | none => exact List.not_mem_nil
  | some n =>
    have hmem := List.mem_of_getLast? hlast
    exact not_mem_segments p n (List.mem_filter.mp hmem).1

theorem lastName_append_slash (hn : '/' ∉ n) (hne : n ≠ []) : lastName (p ++ '/' :: n) = n := by
  unfold lastName
  rw [segments_append_slash, segments_of_no_slash hn, List.filter_append]
  simp [hne]

/-- The last occurrence of a character is where it is. -/
theorem append_cons_last_inj {c : Char} {before before' after after' : Name} (ha : c ∉ after)
    (ha' : c ∉ after') (h : before ++ c :: after = before' ++ c :: after') :
    before = before' ∧ after = after' := by
  rcases List.append_eq_append_iff.mp h with ⟨l, hl, hrest⟩ | ⟨l, hl, hrest⟩
  · cases l with
    | nil =>
      rw [List.nil_append, List.cons.injEq] at hrest
      exact ⟨by simp [hl], hrest.2⟩
    | cons d l =>
      rw [List.cons_append, List.cons.injEq] at hrest
      exact absurd (by simp [hrest.2]) ha
  · cases l with
    | nil =>
      rw [List.nil_append, List.cons.injEq] at hrest
      exact ⟨by simp [hl], hrest.2.symm⟩
    | cons d l =>
      rw [List.cons_append, List.cons.injEq] at hrest
      exact absurd (by simp [hrest.2]) ha'

/-- The last dot and what is around it. -/
theorem cutLastDot_spec (h : '.' ∈ n) :
    n = (cutLastDot n).1 ++ '.' :: (cutLastDot n).2 ∧ '.' ∉ (cutLastDot n).2 := by
  unfold cutLastDot
  have hsplit := List.takeWhile_append_dropWhile (p := (· ≠ '.')) (l := n.reverse)
  have hafter : '.' ∉ (n.reverse.takeWhile (· ≠ '.')).reverse := by
    intro hmem
    have hne := List.mem_takeWhile_imp (List.mem_reverse.mp hmem)
    simp at hne
  refine ⟨?_, hafter⟩
  cases hdrop : n.reverse.dropWhile (· ≠ '.') with
  | nil =>
    rw [List.dropWhile_eq_nil_iff] at hdrop
    exact absurd (hdrop '.' (List.mem_reverse.mpr h)) (by simp)
  | cons c rest =>
    have hc : c = '.' := by
      have hhead := List.head?_dropWhile_not (· ≠ '.') n.reverse
      rw [hdrop] at hhead
      simpa using hhead
    have hn := congrArg List.reverse hsplit
    rw [hdrop, hc, List.reverse_append, List.reverse_cons, List.append_assoc,
      List.reverse_reverse] at hn
    exact hn.symm

/-- A cut at a last dot is the cut. -/
theorem cutLastDot_eq {before after : Name} (h : '.' ∉ after) :
    cutLastDot (before ++ '.' :: after) = (before, after) := by
  obtain ⟨hcut, hafter⟩ := @cutLastDot_spec (before ++ '.' :: after) (by simp)
  obtain ⟨hbefore, hrest⟩ := append_cons_last_inj h hafter hcut
  exact Prod.ext hbefore.symm hrest.symm

theorem extname_of_no_slash (h : '/' ∉ n) : extname n =
    if '.' ∈ n ∧ (cutLastDot n).1 ≠ [] ∧ n ≠ ['.', '.'] then '.' :: (cutLastDot n).2 else [] := by
  unfold extname
  rw [lastName_of_no_slash h]

@[simp] theorem basename_nil (p : Path) : basename p [] = lastName p := by
  unfold basename
  exact if_pos rfl

/-- **A name and its extension.** -/
theorem basename_extname (p : Path) : basename p (extname p) ++ extname p = lastName p := by
  unfold extname
  by_cases h : '.' ∈ lastName p ∧ (cutLastDot (lastName p)).1 ≠ [] ∧ lastName p ≠ ['.', '.']
  · simp only [if_pos h]
    obtain ⟨hcut, -⟩ := cutLastDot_spec h.1
    have hbefore := List.length_pos_iff.mpr h.2.1
    generalize hext : '.' :: (cutLastDot (lastName p)).2 = ext at hcut ⊢
    have hne : ext ≠ lastName p := by
      intro heq
      have hlength := congrArg List.length hcut
      rw [List.length_append, heq] at hlength
      omega
    have hslash : '/' ∉ ext := by
      intro hmem
      apply no_slash_lastName p
      rw [hcut]
      exact List.mem_append_right _ hmem
    have hwhole : p ≠ ext := by
      rintro rfl
      exact hne (lastName_of_no_slash hslash).symm
    unfold basename
    rw [if_neg (by simp [← hext]), if_neg hwhole, if_pos ⟨⟨_, hcut.symm⟩, hne⟩]
    generalize lastName p = n at hcut
    generalize (cutLastDot n).1 = before at hcut
    rw [hcut]
    simp
  · simp only [if_neg h]
    unfold basename
    simp

end

end Montr.Paths
