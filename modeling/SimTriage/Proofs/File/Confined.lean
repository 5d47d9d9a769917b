import SimTriage.Proofs.File.Located
import SimTriage.Proofs.File.Nesting

/-!
Requests and the base directory. A request whose resolution no loop of links stops is answered from
a real file at or below the base directory, with the name of a message file. What is left of a
stopped one is checked by its names alone, and that is where a request can lead out.
-/

set_option autoImplicit false

namespace SimTriage.File.Environment

variable {env : Environment} {request : Text} {base path located left : Path} {place : Place}
  {content : Bytes}

/-- A place at or below the base directory, with the name of a message file. -/
structure Confined (env : Environment) (place : Place) : Prop where
  base : ∃ base, env.base = .ok base ∧ base.names <+: place
  name : IsMessageName (place.getLastD [])

/-- Opening the path reaches that file, and this is where it really stands. -/
structure Opens (env : Environment) (path : Path) (place : Place) (content : Bytes) : Prop where
  reached : env.system.stat env.here path = .ok (place, .file content)
  stands : env.system.Stands place (.file content)

/-- All that a request is answered with comes from a confined file. -/
structure StaysInside (env : Environment) (request : Text) : Prop where
  located : ∀ path, env.locate request = .ok path →
    ∃ place content, env.Opens path place content ∧ env.Confined place
  text : ∀ text, env.readRequested request = .ok text →
    ∃ path place content, env.locate request = .ok path ∧ env.Opens path place content ∧
      env.Confined place ∧ decode (isCompressed path) .standard content = .ok text
  answer : ∀ validator query answer, env.parseRequested validator request query = .ok answer →
    ∃ path place content text, env.locate request = .ok path ∧ env.Opens path place content ∧
      env.Confined place ∧ decode (isCompressed path) .standard content = .ok text ∧
      parseText validator text query = .ok answer

/-- A link on the way to itself stops the resolution of a request, however deep links may be nested,
and this path is left of it. -/
def StopsAt (env : Environment) (request : Text) (left : Path) : Prop :=
  ∃ base path, env.base = .ok base ∧ env.expandHome (.ofText request) = .ok path ∧
    ∀ depth, env.nestingBound ≤ depth →
      env.resolveWithin depth ⟨.slash, []⟩ (base.join path).names [] = .ok (.stopped left)

/-- Going by its names, a path is below the base directory and that of a message file, but it leads
to a file that is not confined. -/
structure LeadsOut (env : Environment) (path : Path) : Prop where
  under : ∃ base, env.base = .ok base ∧ path.isUnder base = true
  suffix : allowedSuffixes.contains (effectiveSuffix path.name) = true
  leaves : ∃ place content, env.Opens path place content ∧ ¬ env.Confined place

/-- A loop of links stops some request, and some path from the root where it is stopped leads
out. -/
def IsExposed (env : Environment) : Prop :=
  ∃ request left path, env.StopsAt request left ∧ path.root = (env.herePath.join left).root ∧
    (∀ name ∈ path.names, IsPlain name) ∧ Slashless path.names ∧ env.LeadsOut path

/-- The path of an accepted request is written in full and leads to a file. -/
theorem plain_of_locate (here : Slashless env.here) (accepted : env.locate request = .ok located) :
    located.isAbsolute = true ∧ (∀ name ∈ located.names, IsPlain name) ∧
      Slashless located.names := by
  obtain ⟨confined, -, -⟩ := locate_eq_ok_iff.mp accepted
  obtain ⟨base, path, isBase, expanded, resolved, -⟩ := confine_eq_ok_iff.mp confined
  obtain ⟨absolute, plain⟩ := plain_of_resolve resolved
  have slashless := slashless_requested here isBase expanded
  exact ⟨absolute, plain, slashless_of_resolve here slashless resolved⟩

theorem exists_opens (accepted : env.locate request = .ok located) :
    ∃ place content, env.Opens located place content := by
  obtain ⟨confined, isFile, -⟩ := locate_eq_ok_iff.mp accepted
  obtain ⟨base, path, -, -, resolved, -⟩ := confine_eq_ok_iff.mp confined
  obtain ⟨place, content, reached⟩ := isFile_eq_true_iff.mp isFile
  exact ⟨place, content, reached, System.find_stands (plain_of_resolve resolved).1 reached⟩

/-- What is read through the text of a path is the content of the file that it leads to. -/
theorem readText_text (plain : ∀ name ∈ path.names, IsPlain name) (slashless : Slashless path.names)
    (opens : env.Opens path place content) :
    env.readText path.text = decode (isCompressed path) .standard content := by
  have same : Path.ofText path.text = path :=
    Path.ofText_text fun name member => ⟨(plain name member).1, slashless name member⟩
  have isFile : env.isFile path = .ok true := isFile_eq_true_iff.mpr ⟨_, _, opens.reached⟩
  have held : env.content path = content := by
    unfold Environment.content
    rw [opens.reached]
  simp only [readText, readTextAs, same, isFile, held]
  rfl

theorem parseRequested_eq (env : Environment) (validator : Schema.Validator) (request : Text)
    (query : Query) :
    env.parseRequested validator request query =
      env.readRequested request >>= fun text => parseText validator text query := by
  simp only [parseRequested, readRequested, readMessage, parseText, bind_assoc]

/-- If every file that a request is accepted for is confined, so is all that it is answered
with. -/
theorem staysInside_of_confined (here : Slashless env.here)
    (confined : ∀ path place content, env.locate request = .ok path →
      env.Opens path place content → env.Confined place) : env.StaysInside request := by
  have text : ∀ text, env.readRequested request = .ok text →
      ∃ path place content, env.locate request = .ok path ∧ env.Opens path place content ∧
        env.Confined place ∧ decode (isCompressed path) .standard content = .ok text := by
    intro text answered
    obtain ⟨path, accepted, read⟩ := bind_eq_ok_iff.mp answered
    obtain ⟨place, content, opens⟩ := exists_opens accepted
    obtain ⟨-, plain, slashless⟩ := plain_of_locate here accepted
    rw [readText_text plain slashless opens] at read
    have inside := confined path place content accepted opens
    exact ⟨path, place, content, accepted, opens, inside, read⟩
  refine ⟨?_, text, ?_⟩
  · intro path accepted
    obtain ⟨place, content, opens⟩ := exists_opens accepted
    exact ⟨place, content, opens, confined path place content accepted opens⟩
  · intro validator query answer answered
    rw [parseRequested_eq] at answered
    obtain ⟨message, read, parsed⟩ := bind_eq_ok_iff.mp answered
    obtain ⟨path, place, content, accepted, opens, inside, decoded⟩ := text message read
    exact ⟨path, place, content, message, accepted, opens, inside, decoded, parsed⟩

/-- A settled path below the base directory leads to the place that it names. -/
theorem confined_of_settled (settled : env.Settled located) (isBase : env.base = .ok base)
    (under : located.isUnder base = true)
    (allowed : allowedSuffixes.contains (effectiveSuffix located.name) = true)
    (opens : env.Opens located place content) : env.Confined place := by
  have same := System.stat_place settled.root settled.plain settled.free opens.reached
  rw [same]
  refine ⟨⟨base, isBase, ?_⟩, isMessageName_of_effectiveSuffix allowed⟩
  simp only [Path.isUnder, Bool.and_eq_true, List.isPrefixOf_iff_prefix] at under
  exact under.2

/-- How the path that a request comes to came about: it is settled, or left by a loop. -/
theorem settled_or_stopsAt {progress : Progress} (here : Slashless env.here)
    (isBase : env.base = .ok base) (expanded : env.expandHome (.ofText request) = .ok path)
    (ran : env.resolveWithin env.nestingBound ⟨.slash, []⟩ (base.join path).names [] =
      .ok progress) : env.Settled progress.path ∨ env.StopsAt request progress.path := by
  have slashless := slashless_requested here isBase expanded
  cases progress with
  | stopped left =>
      exact Or.inr ⟨base, path, isBase, expanded, fun depth enough =>
        resolveWithin_of_nestingBound_le slashless enough ran⟩
  | resolved reached met =>
      exact Or.inl (resolveWithin_holds keeps_settled slashless keeps_settled.root MetAll.nil ran).1

/-- What becomes of a request for which this path is reached: it depends on what a lookup of it
comes to. -/
def verdict (env : Environment) (base path : Path) : Except Failure Path :=
  match env.system.stat env.here path with
  | .error .tooManyLinks => .error (.linkLoop path.text)
  | .error .zeroByte => .error .zeroInPath
  | reached =>
    if path.isUnder base then
      match reached with
      | .ok (_, .file _) =>
        if allowedSuffixes.contains (effectiveSuffix path.name) then .ok path
        else .error (.suffixNotAllowed allowedSuffixes)
      | .error .nameTooLong => .error (.nameTooLong path.text)
      | _ => .error (.fileMissing path.text)
    else .error .outsideBase

theorem locate_of_expandHome {failure : Failure} (isBase : env.base = .ok base)
    (failed : env.expandHome (.ofText request) = .error failure) :
    env.locate request = .error failure := by
  rw [locate, confine, isBase]
  change ((env.expandHome _ >>= _) >>= _) = _
  rw [failed]
  rfl

/-- What is left to do once the names of a request are known. -/
theorem confine_eq (isBase : env.base = .ok base)
    (expanded : env.expandHome (.ofText request) = .ok path) :
    env.confine request = env.resolve (base.join path) >>= fun resolved =>
      if resolved.isUnder base then pure resolved else throw .outsideBase := by
  rw [confine, isBase]
  change (env.expandHome _ >>= _) = _
  rw [expanded]
  rfl

theorem locate_of_resolve {failure : Failure} (isBase : env.base = .ok base)
    (expanded : env.expandHome (.ofText request) = .ok path)
    (failed : env.resolve (base.join path) = .error failure) :
    env.locate request = .error failure := by
  rw [locate, confine_eq isBase expanded, failed]
  rfl

theorem locate_of_not_isUnder (isBase : env.base = .ok base)
    (expanded : env.expandHome (.ofText request) = .ok path)
    (resolved : env.resolve (base.join path) = .ok located)
    (outside : located.isUnder base = false) : env.locate request = .error .outsideBase := by
  have refused : env.confine request = .error .outsideBase := by
    rw [confine_eq isBase expanded, resolved]
    exact if_neg (Bool.eq_false_iff.mp outside)
  rw [locate, refused]
  rfl

/-- A request is resolved from the root. -/
theorem start_eq_root (isBase : env.base = .ok base) (path : Path) :
    (if (base.join path).isAbsolute then ⟨.slash, []⟩ else ⟨.here, []⟩ : Path) = ⟨.slash, []⟩ :=
  if_pos (Path.join_isAbsolute (plain_of_resolve isBase).1 path)

/-- What a request comes to is decided by the path that is reached for it. -/
theorem locate_eq_verdict {progress : Progress} (isBase : env.base = .ok base)
    (expanded : env.expandHome (.ofText request) = .ok path)
    (ran : env.resolveWithin env.nestingBound ⟨.slash, []⟩ (base.join path).names [] =
      .ok progress) :
    env.locate request = env.verdict base (env.herePath.join progress.path).normalize := by
  rw [← start_eq_root isBase path] at ran
  have resolved := resolve_of_ran ran
  generalize (env.herePath.join progress.path).normalize = final at resolved
  rw [locate, confine_eq isBase expanded, resolved, verdict]
  cases reached : env.system.stat env.here final with
  | error obstacle =>
      cases obstacle <;> cases under : final.isUnder base <;>
        simp [pure_eq_ok, throw_eq_error, isFile, reached, under]
  | ok found =>
      obtain ⟨place, node⟩ := found
      cases node <;> cases under : final.isUnder base <;>
        simp [pure_eq_ok, throw_eq_error, isFile, reached, under]

/-- Where a loop stops a request, the names that are left decide on it. -/
theorem locate_of_stopsAt (stops : env.StopsAt request left) (isBase : env.base = .ok base) :
    env.locate request = env.verdict base (env.herePath.join left).normalize := by
  obtain ⟨_, path, isBase', expanded, ran⟩ := stops
  cases Except.ok.inj (isBase.symm.trans isBase')
  have decided : env.locate request =
      env.verdict base (env.herePath.join (Progress.stopped left).path).normalize :=
    locate_eq_verdict isBase expanded (ran _ Nat.le.refl)
  exact decided

theorem LeadsOut.locate_eq (leadsOut : env.LeadsOut (env.herePath.join left).normalize)
    (stops : env.StopsAt request left) :
    env.locate request = .ok (env.herePath.join left).normalize := by
  obtain ⟨⟨base, isBase, under⟩, suffix, place, content, opens, -⟩ := leadsOut
  rw [locate_of_stopsAt stops isBase, verdict, opens.reached]
  simp only [under, suffix, ↓reduceIte]

/-- The request with more names behind it. -/
def extend (request : Text) (more : List Text) : Text :=
  Path.text ⟨(Path.ofText request).root, (Path.ofText request).names ++ more⟩

/-- Names behind a request that is stopped are left as they are. -/
theorem stopsAt_extend {more : List Text} (stops : env.StopsAt request left)
    (written : ∀ name ∈ more, IsWritten name)
    (starts : ∀ user : Text, more.head? ≠ some ('~' :: user)) :
    env.StopsAt (extend request more) ⟨left.root, left.names ++ more⟩ := by
  obtain ⟨base, target, isBase, expanded, ran⟩ := stops
  have extended : Path.ofText (extend request more) =
      ⟨(Path.ofText request).root, (Path.ofText request).names ++ more⟩ := by
    apply Path.ofText_text
    intro name member
    rcases List.mem_append.mp member with member | member
    · exact Path.written_ofText request name member
    · exact written name member
  have filled : ∀ name ∈ (base.join target).names ++ more, name ≠ [] := by
    intro name member
    rcases List.mem_append.mp member with member | member
    · rcases Path.mem_join member with member | member
      · exact ((plain_of_resolve isBase).2 name member).ne_nil
      · exact (written_expandHome expanded name member).ne_nil
    · exact (written name member).ne_nil
  refine ⟨base, ⟨target.root, target.names ++ more⟩, isBase, ?_, ?_⟩
  · rw [extended]
    exact expandHome_append starts expanded
  · intro depth enough
    rw [Path.join_append]
    exact resolveWithin_stopped filled (ran depth enough)

/-- Double dots behind a request that is stopped undo what is left of it, so that any path from
there can take its place. -/
theorem exists_stopsAt_normalize (stops : env.StopsAt request left)
    (root : path.root = (env.herePath.join left).root)
    (plain : ∀ name ∈ path.names, IsPlain name) (slashless : Slashless path.names) :
    ∃ request left, env.StopsAt request left ∧ (env.herePath.join left).normalize = path := by
  let count := (env.herePath.join left).names.length
  let more : List Text := List.replicate (count + 1) doubleDot ++ path.names
  have written : ∀ name ∈ more, IsWritten name := by
    intro name member
    rcases List.mem_append.mp member with member | member
    · rw [List.eq_of_mem_replicate member]
      decide
    · exact ⟨(plain name member).1, slashless name member⟩
  have starts : ∀ user : Text, more.head? ≠ some ('~' :: user) := by
    intro user head
    cases head
  have absolute : (env.herePath.join left).root ≠ .here := by
    have joined : (env.herePath.join left).isAbsolute = true := Path.join_isAbsolute rfl left
    simpa [Path.isAbsolute] using joined
  refine ⟨extend request more, _, stopsAt_extend stops written starts, ?_⟩
  rw [Path.join_append, Path.normalize_climb absolute plain (Nat.le_succ _), ← root]

/-- A request stays inside exactly if no loop of links stops it, or what is left of it does not
lead out; and all requests do exactly in an environment that is not exposed. The names of the
working directory have to be names. -/
theorem staysInside_iff (here : Slashless env.here) :
    (∀ request, env.StaysInside request ↔
      ¬ ∃ left, env.StopsAt request left ∧ env.LeadsOut (env.herePath.join left).normalize) ∧
    ((∀ request, env.StaysInside request) ↔ ¬ env.IsExposed) := by
  have single : ∀ request, env.StaysInside request ↔
      ¬ ∃ left, env.StopsAt request left ∧ env.LeadsOut (env.herePath.join left).normalize := by
    intro request
    constructor
    · intro inside stray
      obtain ⟨left, stops, leadsOut⟩ := stray
      obtain ⟨place, content, opens, confined⟩ :=
        inside.located _ (leadsOut.locate_eq stops)
      obtain ⟨other, content', opens', notConfined⟩ := leadsOut.leaves
      have same := opens.reached.symm.trans opens'.reached
      cases same
      exact notConfined confined
    · intro kept
      refine staysInside_of_confined here fun path place content accepted opens => ?_
      obtain ⟨confined, -, allowed⟩ := locate_eq_ok_iff.mp accepted
      obtain ⟨base, target, isBase, expanded, resolved, under⟩ := confine_eq_ok_iff.mp confined
      obtain ⟨progress, ran, rfl, -⟩ := resolve_eq_ok_iff.mp resolved
      rw [start_eq_root isBase] at ran
      rcases settled_or_stopsAt here isBase expanded ran with settled | stops
      · rw [settled.normalize_join] at under allowed opens
        exact confined_of_settled settled isBase under allowed opens
      · by_contra notConfined
        exact kept ⟨_, stops, ⟨base, isBase, under⟩, allowed, place, content, opens, notConfined⟩
  refine ⟨single, ?_, ?_⟩
  · intro inside exposed
    obtain ⟨request, left, path, stops, root, plain, slashless, leadsOut⟩ := exposed
    obtain ⟨other, rest, stopsOther, rfl⟩ := exists_stopsAt_normalize stops root plain slashless
    exact (single other).mp (inside other) ⟨rest, stopsOther, leadsOut⟩
  · intro hidden request
    refine (single request).mpr ?_
    intro stray
    obtain ⟨left, stops, leadsOut⟩ := stray
    have accepted := leadsOut.locate_eq stops
    obtain ⟨-, plain, slashless⟩ := plain_of_locate here accepted
    exact hidden ⟨request, left, _, stops, Path.root_normalize _, plain, slashless, leadsOut⟩

/-- A base directory with a link to itself, a link that leads out, and a message file. -/
def looped : Environment where
  system := ⟨[
    (["base"], .directory),
    (["base", "loop"], .link "loop"),
    (["base", "out.log"], .link "../secret.env"),
    (["base", "notes.log"], .file (Text.Utf8.encode "notes")),
    (["secret.env"], .file (Text.Utf8.encode "secret"))]⟩
  here := []
  home := some "/"
  accounts := []
  baseSetting := some "/base"

/-- The request that no loop stops is answered, and stays inside. -/
theorem staysInside_notes :
    Slashless looped.here ∧ looped.readRequested "notes.log" = .ok "notes" ∧
      looped.StaysInside "notes.log" := by
  have here : Slashless looped.here := by simp [Slashless, looped]
  refine ⟨here, by decide +kernel, (staysInside_iff here).1 "notes.log" |>.mpr ?_⟩
  intro stray
  obtain ⟨left, ⟨base, path, isBase, expanded, ran⟩, -⟩ := stray
  have isBase' : looped.base = .ok ⟨.slash, ["base"]⟩ := by decide +kernel
  rw [isBase'] at isBase
  cases isBase
  cases expanded
  have resolved : looped.resolveWithin looped.nestingBound ⟨.slash, []⟩ ["base", "notes.log"] [] =
      .ok (.resolved ⟨.slash, ["base", "notes.log"]⟩ []) := rfl
  have stopped := ran _ Nat.le.refl
  change looped.resolveWithin looped.nestingBound ⟨.slash, []⟩ ["base", "notes.log"] [] = _
    at stopped
  rw [resolved] at stopped
  cases stopped

/-- A loop and a way back up past it bring out what a link below the base directory leads to. -/
theorem not_staysInside_loop :
    looped.readRequested "loop/../out.log" = .ok "secret" ∧
      looped.base = .ok ⟨.slash, ["base"]⟩ ∧
      looped.system.stat [] ⟨.slash, ["base", "out.log"]⟩ =
        .ok (["secret.env"], .file (Text.Utf8.encode "secret")) ∧
      ¬ looped.StaysInside "loop/../out.log" := by
  have isBase : looped.base = .ok ⟨.slash, ["base"]⟩ := by decide +kernel
  have reached : looped.system.stat [] ⟨.slash, ["base", "out.log"]⟩ =
      .ok (["secret.env"], .file (Text.Utf8.encode "secret")) := by decide +kernel
  refine ⟨by decide +kernel, isBase, reached, ?_⟩
  intro inside
  have accepted : looped.locate "loop/../out.log" = .ok ⟨.slash, ["base", "out.log"]⟩ := by
    decide +kernel
  obtain ⟨place, content, opens, ⟨base, isBase', under⟩, -⟩ := inside.located _ accepted
  rw [isBase] at isBase'
  cases isBase'
  have same := opens.reached.symm.trans reached
  cases same
  revert under
  decide

end SimTriage.File.Environment
