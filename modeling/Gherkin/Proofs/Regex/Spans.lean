import Gherkin.Proofs.Regex.Fragment

/-! # Where groups stand

A numbered group stands where the tokens are read while it is open, from its parenthesis on. Among pieces, the group of
a piece stands in that piece (`Gherkin.Regex.groupWithin_of_piece`): before the piece no such group is open, what is
opened in the piece has its parenthesis there, and behind it the group is closed.
-/

namespace Gherkin.Regex

/-! ### The marks of open groups -/

/-- What an open group is for, and the place of its parenthesis. -/
def Frame.mark (f : Frame) : Scope × Nat := (f.scope, f.position)

namespace Build

/-- The marks of the open groups, with the whole pattern last. -/
def marks (b : Build) : List (Scope × Nat) := (b.frame :: b.outer).map Frame.mark

variable {b c : Build} {place : Nat} {action : Action} {actions : List Action}

/-- An action changes the open groups only where it opens or closes one. -/
theorem Change.marks (did : b.Change place action c) : c.marks <:+ b.marks ∧ c.groups = b.groups ∨
    ∃ length opening scope flags groups, action = .opened length opening ∧ b.Opens opening scope flags groups ∧
      c.marks = (scope, place - length) :: b.marks ∧ c.groups = groups := by
  cases did with
  | leaf | reference | named | check | repeated | alternative | flagged => exact .inl ⟨List.suffix_rfl, rfl⟩
  | opened length _ _ _ opens => exact .inr ⟨length, _, _, _, _, rfl, opens, rfl, rfl⟩
  | closed widths shown =>
    refine .inl ⟨?_, rfl⟩
    rw [Build.marks, Build.marks, shown]
    exact List.suffix_cons _ _

/-- A group that keeps its text gets the next number. -/
theorem Opens.capture_eq {opening : Opening} {flags : List Flag} {groups number : Nat}
    (opens : b.Opens opening (.capture number) flags groups) : number = b.groups + 1 ∧ groups = b.groups + 1 := by
  cases opens
  exact ⟨rfl, rfl⟩

theorem Opens.groups_eq {opening : Opening} {scope : Scope} {flags : List Flag} {groups : Nat}
    (opens : b.Opens opening scope flags groups) :
    groups = b.groups ∨ groups = b.groups + 1 ∧ scope = .capture (b.groups + 1) := by
  cases opens with
  | capture => exact .inr ⟨rfl, rfl⟩
  | plain | atomic | look | conditional => exact .inl rfl

theorem Change.groups_le (did : b.Change place action c) : b.groups ≤ c.groups := by
  rcases did.marks with ⟨-, same⟩ | ⟨_, _, _, _, _, -, opens, -, rfl⟩
  · exact Nat.le_of_eq same.symm
  · rcases opens.groups_eq with same | ⟨more, -⟩ <;> omega

/-- The marks behind several actions were there before, or belong to groups that the actions open. -/
theorem marks_of_performAll {mark : Scope × Nat} (did : b.performAll place actions = .ok c) (member : mark ∈ c.marks) :
    mark ∈ b.marks ∨ ∃ length opening, .opened length opening ∈ actions ∧ mark.2 = place - length ∧
      ∀ number, mark.1 = .capture number → b.groups < number := by
  induction actions generalizing b with
  | nil =>
    cases did
    exact .inl member
  | cons action rest ih =>
    obtain ⟨middle, first, did⟩ := performAll_cons_eq_ok did
    rcases ih did with held | ⟨length, opening, later, eq, greater⟩
    · rcases first.marks with ⟨suffix, -⟩ | ⟨length, opening, _, _, _, rfl, opens, marks, -⟩
      · exact .inl (suffix.mem held)
      · rw [marks] at held
        rcases List.mem_cons.mp held with rfl | held
        · refine .inr ⟨length, opening, List.mem_cons_self, rfl, ?_⟩
          rintro number rfl
          exact Nat.lt_of_succ_le (Nat.le_of_eq opens.capture_eq.1.symm)
        · exact .inl held
    · exact .inr ⟨length, opening, List.mem_cons_of_mem _ later, eq,
        fun number shown => Nat.lt_of_le_of_lt first.groups_le (greater number shown)⟩

/-- A single action opens at most one group that keeps its text, the next one. -/
theorem opened_of_performAll (did : b.performAll place actions = .ok c) (single : actions.length ≤ 1) :
    c.groups = b.groups ∨ c.groups = b.groups + 1 ∧
      ∃ position, c.marks = (.capture (b.groups + 1), position) :: b.marks := by
  cases actions with
  | nil =>
    cases did
    exact .inl rfl
  | cons action rest =>
    obtain rfl : rest = [] := List.length_eq_zero_iff.mp (Nat.le_zero.mp (Nat.succ_le_succ_iff.mp single))
    rcases (performAll_singleton did).marks with ⟨-, same⟩ | ⟨_, _, _, _, _, -, opens, marks, rfl⟩
    · exact .inl same
    · exact opens.groups_eq.imp_right fun ⟨more, scope⟩ => ⟨more, _, scope ▸ marks⟩

theorem Extends.marks (extends_ : b.Extends c) : c.marks = b.marks := by
  simp only [Build.marks, List.map_cons, Frame.mark, extends_.scope, extends_.position, extends_.outer]

end Build

namespace Reader

/-- What holds of a reader from a place on, if no group that keeps its text was open there and so many were counted. -/
structure Since (least before : Nat) (r : Reader) : Prop where
  marks : ∀ number position, (.capture number, position) ∈ r.build.marks →
    before < number ∧ least ≤ position ∧ position < r.position
  opening : ∀ behind, r.construct.opening? = some behind → least + behind ≤ r.position
  groups : before ≤ r.build.groups
  position : least ≤ r.position

variable {r s next last q : Reader} {token : Token} {ts : List Token} {least before groups : Nat}

theorem Since.performAll {place : Nat} {actions : List Action} {construct : Construct} {build : Build}
    (since : r.Since least before) (did : r.build.performAll place actions = .ok build) (moved : r.position ≤ place)
    (opened : ∀ length opening, .opened length opening ∈ actions → least ≤ place - length ∧ place - length < place)
    (opening : ∀ behind, construct.opening? = some behind → least + behind ≤ place) :
    Since least before ⟨place, construct, build⟩ where
  marks number position member := by
    rcases Build.marks_of_performAll did member with held | ⟨length, opening, later, eq, greater⟩
    · obtain ⟨more, from_, behind⟩ := since.marks number position held
      exact ⟨more, from_, Nat.lt_of_lt_of_le behind moved⟩
    · obtain rfl : position = place - length := eq
      exact ⟨Nat.lt_of_le_of_lt since.groups (greater number rfl), opened length opening later⟩
  opening := opening
  groups := Build.performAll_induction (motive := fun b => before ≤ b.groups)
    (fun _ _ _ did grown => Nat.le_trans grown did.groups_le) did since.groups
  position := Nat.le_trans since.position moved

/-- Where a reader rests behind an anchored piece, no group is open. -/
theorem Passes.since (passes : anchored.Passes groups q) : q.Since q.position groups where
  marks number position member := by
    have marks : q.build.marks = [(.whole, 0)] := by
      simp only [Build.marks, passes.outer, List.map_cons, Frame.mark, passes.scope, passes.position]
      rfl
    simp [marks] at member
  opening behind shown := by
    rw [Construct.opening?_of_resting passes.ready.resting] at shown
    cases shown
  groups := by
    rw [passes.groups]
    exact Nat.le_add_left _ _
  position := Nat.le_refl _

variable [CharacterNames]

theorem groups_le_of_steps (read : r.steps ts = .ok next) : r.build.groups ≤ next.build.groups :=
  steps_induction (motive := fun b => r.build.groups ≤ b.groups)
    (fun _ _ _ _ did grown => Nat.le_trans grown did.groups_le) read (Nat.le_refl _)

theorem Since.settle (since : r.Since least before) (settled : r.settle (some token) = .ok s) :
    s.Since least before := by
  obtain ⟨construct, actions, build, settles, performed, rfl⟩ := settle_eq_ok settled
  cases Construct.settles_of_settle settles with
  | kept => exact since.performAll performed (Nat.le_refl _) nofun since.opening
  | items plain =>
    exact since.performAll performed (Nat.le_refl _) (fun _ _ member => nomatch plain _ member) nofun
  | opened start =>
    have near := since.opening 1 (by rw [start]; rfl)
    refine since.performAll performed (Nat.le_refl _) (fun length opening member => ?_) nofun
    cases List.mem_singleton.mp member
    exact ⟨by omega, by omega⟩
  | member => exact since.performAll performed (Nat.le_refl _) nofun nofun

theorem Since.step (since : r.Since least before) (read : r.step token = .ok next) : next.Since least before := by
  obtain ⟨s, construct, actions, build, settled, leads, performed, rfl⟩ := step_leads read
  have since := since.settle settled
  have from_ := since.position
  have some_read := token.length_pos
  refine since.performAll performed (Nat.le_add_right _ _) (fun length opening member => ?_) fun behind shown => ?_
  · obtain ⟨d, begun, rfl⟩ := leads.opened length opening member
    have near := since.opening d begun
    exact ⟨by omega, by omega⟩
  · rcases leads.opening behind shown with rfl | ⟨d, begun, rfl⟩
    · omega
    · have near := since.opening d begun
      omega

theorem Since.steps (since : r.Since least before) (read : r.steps ts = .ok next) : next.Since least before := by
  induction ts generalizing r with
  | nil =>
    cases read
    exact since
  | cons token rest ih =>
    obtain ⟨middle, first, read⟩ := steps_cons_eq_ok read
    exact ih (since.step first) read

/-- In front of a token, open groups stay open, and at most one that keeps its text opens, the next one. -/
theorem marks_settle (settled : r.settle (some token) = .ok s) : r.build.marks ⊆ s.build.marks ∧
    (s.build.groups = r.build.groups ∨ s.build.groups = r.build.groups + 1 ∧
      ∃ position, (.capture (r.build.groups + 1), position) ∈ s.build.marks) := by
  obtain ⟨construct, actions, build, settles, performed, rfl⟩ := settle_eq_ok settled
  cases Construct.settles_of_settle settles with
  | kept | member =>
    cases performed
    exact ⟨List.Subset.refl _, .inl rfl⟩
  | items plain =>
    have extends_ := Build.extends_of_performAll plain performed
    rw [extends_.marks]
    exact ⟨List.Subset.refl _, .inl extends_.groups⟩
  | opened =>
    cases performed
    exact ⟨List.subset_cons_self _ _, .inr ⟨rfl, _, List.mem_cons_self⟩⟩

/-- Every group that tokens open is open when one of them is read. -/
theorem exists_open {number : Nat} (read : r.steps ts = .ok last) (none_open : last.build.outer = [])
    (later : r.build.groups < number) (opened : number ≤ last.build.groups) :
    ∃ front token after middle s position, ts = front ++ token :: after ∧ r.steps front = .ok middle ∧
      middle.settle (some token) = .ok s ∧ (.capture number, position) ∈ s.build.marks := by
  induction ts generalizing r with
  | nil =>
    cases read
    omega
  | cons token rest ih =>
    obtain ⟨next, first, read⟩ := steps_cons_eq_ok read
    obtain ⟨s, construct, actions, build, settled, leads, performed, eq⟩ := step_leads first
    by_cases early : number ≤ s.build.groups
    · -- The group opens in front of the token.
      rcases (marks_settle settled).2 with none_there | ⟨more, position, member⟩
      · omega
      · obtain rfl : number = r.build.groups + 1 := by omega
        exact ⟨[], token, rest, r, s, position, rfl, rfl, settled, member⟩
    · by_cases here : number ≤ next.build.groups
      · -- The token opens the group, so there is another one behind it.
        subst eq
        dsimp only at here
        rcases Build.opened_of_performAll performed leads.single with same | ⟨groups, position, marks⟩
        · omega
        · obtain rfl : number = s.build.groups + 1 := by omega
          cases rest with
          | nil =>
            cases read
            have count := congrArg List.length marks
            dsimp only at none_open
            simp [Build.marks, none_open] at count
          | cons other after =>
            obtain ⟨_, second, -⟩ := steps_cons_eq_ok read
            obtain ⟨s', settled', -⟩ := step_eq_ok second
            refine ⟨[token], other, after, _, s', position, rfl, (steps_singleton r token).trans first, settled', ?_⟩
            exact (marks_settle settled').1 (marks ▸ List.mem_cons_self)
      · obtain ⟨front, other, after, middle, s, position, rfl, front_read, member⟩ := ih read (by omega)
        refine ⟨token :: front, other, after, middle, s, position, rfl, ?_, member⟩
        rw [steps_cons, first]
        exact front_read

end Reader

/-! ### Groups in a pattern -/

section Groups

variable [CharacterNames]

/-- Whether a token of a pattern is read while a group is open: the number of the group and the place of its
parenthesis, and where the token starts and stops. -/
def Inside (pattern : Text) (number opening first last : Nat) : Prop :=
  ∃ before token after r s, tokens pattern = before ++ token :: after ∧ (Reader.start []).steps before = .ok r ∧
    r.settle (some token) = .ok s ∧ (.capture number, opening) ∈ s.build.marks ∧ first = r.position ∧
    last = r.position + token.source.length

/-- Whether a group of a pattern lies in a stretch of it: the group is there, and while it is open, from its parenthesis
on, tokens of the stretch are read. -/
structure GroupWithin (pattern : Text) (number first last : Nat) : Prop where
  there : ∃ opening start stop, Inside pattern number opening start stop
  within : ∀ opening start stop, Inside pattern number opening start stop →
    first ≤ opening ∧ opening < start ∧ stop ≤ last

variable {t u v : Text} {groups more number opening first last : Nat} {regex : Regex}

/-- Groups that are open have been counted. -/
theorem Reader.number_le_of_settle {r s q : Reader} {token : Token} {ts after : List Token}
    (front : (start []).steps ts = .ok r) (settled : r.settle (some token) = .ok s)
    (read : r.steps (token :: after) = .ok q) (member : (.capture number, opening) ∈ s.build.marks) :
    number ≤ q.build.groups := by
  have numbered : s.build.Numbered := by
    have before := steps_induction (fun _ _ _ _ did => did.numbered) front (Build.numbered_start [])
    obtain ⟨_, _, _, _, performed, rfl⟩ := settle_eq_ok settled
    exact Build.performAll_induction (fun _ _ _ did => did.numbered) performed before
  have counted : s.build.groups ≤ q.build.groups := by
    obtain ⟨next, one, read⟩ := steps_cons_eq_ok read
    obtain ⟨s', settled', taken⟩ := step_eq_ok one
    cases settled.symm.trans settled'
    obtain ⟨_, _, _, _, performed, rfl⟩ := take_eq_ok taken
    refine Nat.le_trans ?_ (groups_le_of_steps read)
    exact Build.performAll_induction (motive := fun b => s.build.groups ≤ b.groups)
      (fun _ _ _ did grown => Nat.le_trans grown did.groups_le) performed (Nat.le_refl _)
  obtain ⟨f, there, mark⟩ := List.mem_map.mp member
  exact Nat.le_trans (numbered.opened f there number (congrArg Prod.fst mark)).2 counted

/-- Where the front of an anchored pattern is a piece, a group is open in the piece with a number up to the groups of
the piece, or behind it with a greater one. -/
theorem Inside.cut (inside : Inside ('^' :: (u ++ v)) number opening first last) (piece : Piece u groups)
    (compiled : compile ('^' :: (u ++ v)) = .ok regex) :
    number ≤ groups ∧ last ≤ ('^' :: u).length ∨
      groups < number ∧ ('^' :: u).length ≤ opening ∧ opening < first := by
  obtain ⟨before, token, after, r, s, split, front, settled, member, rfl, rfl⟩ := inside
  obtain ⟨-, q, -, read, -⟩ := compileWith_eq_ok compiled
  rw [tokens_cons (by decide)] at split read
  cases before with
  | nil =>
    cases front
    cases List.head_eq_of_cons_eq split
    cases settled
    simp [Reader.start, Build.start, Build.marks, Frame.mark] at member
  | cons anchor before =>
    obtain ⟨rfl, rest⟩ := List.cons.inj split
    rw [Reader.steps_start_anchor, tokens_append piece.closed] at read
    rw [tokens_append piece.closed] at rest
    obtain ⟨middle, first, read⟩ := Reader.steps_append_eq_ok read
    have passes := piece.passes _ middle Reader.ready_anchored first
    have place : middle.position = ('^' :: u).length := by
      rw [Reader.steps_position first, flatMap_source_tokens, List.length_cons, Nat.add_comm]
      rfl
    have counted : middle.build.groups = groups := passes.groups.trans (Nat.zero_add _)
    have behind (more : List Token) (eq : before = tokens u ++ more) :
        groups < number ∧ ('^' :: u).length ≤ opening ∧ opening < r.position := by
      rw [Reader.steps_start_anchor, eq, Reader.steps_append, first] at front
      have since := (passes.since.steps front).settle settled
      obtain ⟨_, _, _, _, _, rfl⟩ := Reader.settle_eq_ok settled
      exact place ▸ since.marks number opening member
    rcases List.append_eq_append_iff.mp rest with ⟨more, eq, -⟩ | ⟨more, eq, rest⟩
    · exact .inr (behind more eq)
    · cases more with
      | nil => exact .inr (behind [] (by simpa using eq.symm))
      | cons other more =>
        obtain ⟨rfl, -⟩ := List.cons.inj rest
        have within := Reader.steps_position first
        rw [eq] at first within
        obtain ⟨r', front', goes_on⟩ := Reader.steps_append_eq_ok first
        cases front'.symm.trans ((Reader.steps_start_anchor before).symm.trans front)
        left
        refine ⟨counted ▸ Reader.number_le_of_settle front settled goes_on member, ?_⟩
        have place' := Reader.steps_position front'
        rw [← place, within, place', List.flatMap_append, List.flatMap_cons, List.length_append, List.length_append]
        omega

/-- Every number up to the number of groups is that of a group that is open somewhere. -/
theorem exists_inside (piece : Piece t groups) (compiled : compile ('^' :: t) = .ok regex) (positive : 0 < number)
    (within : number ≤ groups) : ∃ opening first last, Inside ('^' :: t) number opening first last := by
  obtain ⟨q, -, read, passes, -, -, -⟩ := exists_of_anchored piece compiled
  have none_open : q.build.outer = [] := passes.outer
  obtain ⟨before, token, after, r, s, position, split, front, settled, member⟩ :=
    Reader.exists_open read none_open positive (by rw [passes.groups]; omega)
  refine ⟨position, _, _, .plain '^' :: before, token, after, r, s, ?_, ?_, settled, member, rfl, rfl⟩
  · rw [tokens_cons (by decide), split]
    rfl
  · rw [Reader.steps_start_anchor, front]

/-- The group of a piece lies in the piece, with the number that follows those of the groups in front. -/
theorem groupWithin_of_piece {front middle back : Text} (before : Piece front groups) (one : Piece middle 1)
    (after : Piece back more) (compiled : compile ('^' :: (front ++ middle ++ back)) = .ok regex) :
    GroupWithin ('^' :: (front ++ middle ++ back)) (groups + 1) ('^' :: front).length
      ('^' :: (front ++ middle)).length where
  there := exists_inside ((before.append one).append after) compiled (Nat.succ_pos _) (by omega)
  within opening start stop inside := by
    have whole := inside.cut (before.append one) compiled
    rw [List.append_assoc] at compiled inside
    rcases inside.cut before compiled with ⟨fewer, _⟩ | ⟨_, from_, ends⟩
    · omega
    · rcases whole with ⟨_, stops⟩ | ⟨more, _⟩
      · exact ⟨from_, ends, stops⟩
      · omega

end Groups

end Gherkin.Regex
