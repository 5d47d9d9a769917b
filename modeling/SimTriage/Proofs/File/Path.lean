import SimTriage.File.Path
import SimTriage.Proofs.Text.Split

/-!
Plain paths. A path all of whose names lead one step down is its own normal form, and a path can be
read back from its text if no name of it is idle or has a slash in it.
-/

set_option autoImplicit false

namespace SimTriage.File

/-- A name that leads one step down. -/
def IsPlain (name : Text) : Prop := Path.isIdle name = false ∧ name ≠ doubleDot

/-- A name that is there again when the path that it is written in is read. -/
def IsWritten (name : Text) : Prop := Path.isIdle name = false ∧ '/' ∉ name

instance (name : Text) : Decidable (IsWritten name) := inferInstanceAs (Decidable (_ ∧ _))

/-- Names that can be written between slashes. -/
def Slashless (names : List Text) : Prop := ∀ name ∈ names, '/' ∉ name

theorem isPlain_of_busy {name : Text} (busy : ¬ (Path.isIdle name || name = doubleDot) = true) :
    IsPlain name := by
  simpa [IsPlain] using busy

theorem IsPlain.ne_nil {name : Text} (plain : IsPlain name) : name ≠ [] := by
  intro empty
  rw [empty] at plain
  exact absurd plain.1 (by decide)

theorem IsWritten.ne_nil {name : Text} (written : IsWritten name) : name ≠ [] := by
  intro empty
  rw [empty] at written
  exact absurd written.1 (by decide)

theorem Slashless.append {front back : List Text} (first : Slashless front)
    (later : Slashless back) : Slashless (front ++ back) :=
  List.forall_mem_append.mpr ⟨first, later⟩

theorem Slashless.head {name : Text} {names : List Text} (slashless : Slashless (name :: names)) :
    '/' ∉ name :=
  slashless name List.mem_cons_self

theorem Slashless.tail {name : Text} {names : List Text} (slashless : Slashless (name :: names)) :
    Slashless names :=
  fun other member => slashless other (List.mem_cons_of_mem _ member)

namespace Path

theorem slashless_split (text : Text) : Slashless (split text) := by
  intro name member
  exact Text.not_mem_of_mem_splitOn member

theorem written_ofText (text : Text) : ∀ name ∈ (ofText text).names, IsWritten name := by
  intro name member
  obtain ⟨piece, busy⟩ := List.mem_filter.mp member
  exact ⟨by simpa using busy, slashless_split text name piece⟩

theorem text_of_names {names : List Text} (nonempty : names ≠ []) (root : Root) :
    text ⟨root, names⟩ = root.text ++ Text.join "/" names := by
  simp only [text, nonempty, decide_false, Bool.and_false, Bool.false_eq_true, ↓reduceIte]

/-- A text that begins with something else than a slash adds nothing to the root before it. -/
theorem ofText_root_append {c : Char} (other : c ≠ '/') (root : Root) (rest : Text) :
    Root.ofText (root.text ++ c :: rest) = root := by
  cases root <;> simp [Root.text, Root.ofText, other]

theorem exists_join_eq_cons {name : Text} (names : List Text) (written : IsWritten name) :
    ∃ (c : Char) (rest : Text), Text.join "/" (name :: names) = c :: rest ∧ c ≠ '/' := by
  cases name with
  | nil => exact absurd rfl written.ne_nil
  | cons c name =>
      have other : c ≠ '/' := by
        intro same
        exact written.2 (by simp [same])
      cases names with
      | nil => exact ⟨c, name, rfl, other⟩
      | cons next names => exact ⟨c, _, rfl, other⟩

/-- The names between the slashes of a path, without those of its root. -/
theorem filter_split_text {names : List Text} (nonempty : names ≠ [])
    (written : ∀ name ∈ names, IsWritten name) (root : Root) :
    (split (root.text ++ Text.join "/" names)).filter (fun name => !isIdle name) = names := by
  have pieces : split (Text.join "/" names) = names :=
    Text.splitOn_join nonempty fun name member => (written name member).2
  have kept : names.filter (fun name => !isIdle name) = names := by
    rw [List.filter_eq_self]
    intro name member
    rw [(written name member).1, Bool.not_false]
  have slash : ∀ text : Text, (split ('/' :: text)).filter (fun name => !isIdle name) =
      (split text).filter fun name => !isIdle name := by
    intro text
    rw [split, Text.splitOn_cons_self]
    rfl
  cases root with
  | here => rw [Root.text, List.nil_append, pieces, kept]
  | slash =>
      change (split ('/' :: Text.join "/" names)).filter _ = _
      rw [slash, pieces, kept]
  | doubleSlash =>
      change (split ('/' :: '/' :: Text.join "/" names)).filter _ = _
      rw [slash, slash, pieces, kept]

/-- A path can be read back from its text. -/
theorem ofText_text {path : Path} (written : ∀ name ∈ path.names, IsWritten name) :
    ofText path.text = path := by
  obtain ⟨root, names⟩ := path
  cases names with
  | nil => cases root <;> rfl
  | cons name names =>
      have nonempty : name :: names ≠ [] := by simp
      obtain ⟨c, rest, begins, other⟩ := exists_join_eq_cons names (written name List.mem_cons_self)
      rw [text_of_names nonempty, ofText, filter_split_text nonempty written, begins,
        ofText_root_append other]

/-- The text of a path with fewer names is the beginning of its own. -/
theorem text_append_prefix (root : Root) (front back : List Text) (nonempty : front ≠ []) :
    text ⟨root, front⟩ <+: text ⟨root, front ++ back⟩ := by
  have longer : front ++ back ≠ [] := by simp [nonempty]
  rw [text_of_names nonempty, text_of_names longer, List.prefix_append_right_inj]
  exact Text.join_append_prefix "/" front back

section Enter

variable {path : Path} {name : Text}

theorem enter_of_isIdle (idle : isIdle name = true) : path.enter name = path := by
  simp only [enter, idle, ↓reduceIte]

theorem enter_of_isPlain (plain : IsPlain name) :
    path.enter name = ⟨path.root, path.names ++ [name]⟩ := by
  simp only [enter, plain.1, plain.2, Bool.false_eq_true, ↓reduceIte]

/-- Above plain names, double dots lead up, if there is something above. -/
theorem enter_doubleDot (absolute : path.isAbsolute = true)
    (plain : ∀ name ∈ path.names, IsPlain name) :
    path.enter doubleDot = ⟨path.root, path.names.dropLast⟩ := by
  have busy : isIdle doubleDot = false := by decide
  simp only [enter, busy, Bool.false_eq_true, ↓reduceIte]
  cases last : path.names.getLast? with
  | none =>
      rw [List.getLast?_eq_none_iff] at last
      obtain ⟨root, names⟩ := path
      subst last
      simp [absolute]
  | some name =>
      have other : name ≠ doubleDot := (plain name (List.mem_of_getLast? last)).2
      simp only [other, ↓reduceIte]

theorem root_enter (path : Path) (name : Text) : (path.enter name).root = path.root := by
  unfold enter
  split
  · rfl
  split
  · split
    · split <;> rfl
    · split <;> rfl
  · rfl

theorem mem_enter {other : Text} (member : other ∈ (path.enter name).names) :
    other ∈ path.names ∨ other = name := by
  unfold enter at member
  split at member
  · exact Or.inl member
  split at member
  · rename_i dots
    split at member
    · split at member
      · exact Or.inl member
      · rw [List.mem_singleton] at member
        exact Or.inr (member.trans dots.symm)
    · split at member
      · rw [List.mem_append, List.mem_singleton] at member
        exact member.imp id fun same => same.trans dots.symm
      · exact Or.inl (List.dropLast_subset _ member)
  · rwa [List.mem_append, List.mem_singleton] at member

theorem plain_enter (absolute : path.isAbsolute = true)
    (plain : ∀ name ∈ path.names, IsPlain name) :
    ∀ other ∈ (path.enter name).names, IsPlain other := by
  intro other member
  by_cases idle : isIdle name = true
  · rw [enter_of_isIdle idle] at member
    exact plain other member
  by_cases dots : name = doubleDot
  · rw [dots, enter_doubleDot absolute plain] at member
    exact plain other (List.dropLast_subset _ member)
  · rcases mem_enter member with member | rfl
    · exact plain other member
    · exact ⟨by simpa using idle, dots⟩

end Enter

section Normalize

theorem root_foldl_enter (names : List Text) (path : Path) :
    (names.foldl enter path).root = path.root := by
  induction names generalizing path with
  | nil => rfl
  | cons name names ih => rw [List.foldl_cons, ih, root_enter]

theorem plain_foldl_enter (names : List Text) {path : Path} (absolute : path.isAbsolute = true)
    (plain : ∀ name ∈ path.names, IsPlain name) :
    ∀ name ∈ (names.foldl enter path).names, IsPlain name := by
  induction names generalizing path with
  | nil => exact plain
  | cons name names ih =>
      rw [List.foldl_cons]
      apply ih
      · simpa only [isAbsolute, root_enter] using absolute
      · exact plain_enter absolute plain

theorem mem_foldl_enter {names : List Text} {path : Path} {other : Text}
    (member : other ∈ (names.foldl enter path).names) : other ∈ path.names ∨ other ∈ names := by
  induction names generalizing path with
  | nil => exact Or.inl member
  | cons name names ih =>
      rcases ih member with member | member
      · rcases mem_enter member with member | rfl
        · exact Or.inl member
        · exact Or.inr List.mem_cons_self
      · exact Or.inr (List.mem_cons_of_mem _ member)

theorem foldl_enter_of_isPlain {names : List Text} (plain : ∀ name ∈ names, IsPlain name)
    (path : Path) : names.foldl enter path = ⟨path.root, path.names ++ names⟩ := by
  induction names generalizing path with
  | nil => simp
  | cons name names ih =>
      have later := ih fun other member => plain other (List.mem_cons_of_mem _ member)
      rw [List.foldl_cons, enter_of_isPlain (plain name List.mem_cons_self), later]
      simp

theorem length_foldl_enter_le (names : List Text) (path : Path) :
    (names.foldl enter path).names.length ≤ path.names.length + names.length := by
  induction names generalizing path with
  | nil => simp
  | cons name names ih =>
      have step : (path.enter name).names.length ≤ path.names.length + 1 := by
        unfold enter
        repeat' split
        all_goals simp
        omega
      have later := ih (path.enter name)
      rw [List.foldl_cons, List.length_cons]
      omega

/-- Enough double dots lead to the root. -/
theorem foldl_enter_doubleDots {count : Nat} {path : Path} (absolute : path.isAbsolute = true)
    (plain : ∀ name ∈ path.names, IsPlain name) (enough : path.names.length ≤ count) :
    (List.replicate count doubleDot).foldl enter path = ⟨path.root, []⟩ := by
  induction count generalizing path with
  | zero =>
      have empty : path.names = [] := List.length_eq_zero_iff.mp (by omega)
      rw [← empty]
      rfl
  | succ count ih =>
      rw [List.replicate_succ, List.foldl_cons, enter_doubleDot absolute plain]
      apply ih
      · exact absolute
      · exact fun name member => plain name (List.dropLast_subset _ member)
      · rw [List.length_dropLast]
        omega

theorem root_normalize (path : Path) : path.normalize.root = path.root :=
  root_foldl_enter path.names ⟨path.root, []⟩

theorem plain_normalize {path : Path} (absolute : path.isAbsolute = true) :
    ∀ name ∈ path.normalize.names, IsPlain name := by
  apply plain_foldl_enter path.names
  · exact absolute
  · simp

theorem slashless_normalize {path : Path} (slashless : Slashless path.names) :
    Slashless path.normalize.names := by
  intro name member
  rcases mem_foldl_enter member with member | member
  · cases member
  · exact slashless name member

theorem normalize_of_isPlain {path : Path} (plain : ∀ name ∈ path.names, IsPlain name) :
    path.normalize = path := by
  rw [normalize, foldl_enter_of_isPlain plain, List.nil_append]

/-- Behind enough double dots, a path is what stands there alone. -/
theorem normalize_climb {root : Root} {front back : List Text} {count : Nat}
    (absolute : root ≠ .here) (plain : ∀ name ∈ back, IsPlain name)
    (enough : front.length ≤ count) :
    normalize ⟨root, front ++ (List.replicate count doubleDot ++ back)⟩ = ⟨root, back⟩ := by
  have isAbsolute : isAbsolute ⟨root, []⟩ = true := by simpa [Path.isAbsolute] using absolute
  have short := length_foldl_enter_le front ⟨root, []⟩
  have root' := root_foldl_enter front ⟨root, []⟩
  rw [normalize, List.foldl_append, List.foldl_append, foldl_enter_doubleDots,
    foldl_enter_of_isPlain plain, root', List.nil_append]
  · rw [Path.isAbsolute, root']
    exact isAbsolute
  · exact plain_foldl_enter front isAbsolute (by simp)
  · rw [List.length_nil, Nat.zero_add] at short
    exact Nat.le_trans short enough

end Normalize

end Path

end SimTriage.File
