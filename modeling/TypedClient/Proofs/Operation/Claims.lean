import TypedClient.Proofs.Operation.Stops

/-!
# Runs of compilations

Operations are compiled one after the other beside the identifiers that have been claimed, and the
run goes on whatever becomes of one of them. What a step leaves claimed depends on its identifier
alone: the first operation that gives an identifier claims it, whether or not it compiles, and every
later one that gives it is turned away.
-/
namespace TypedClient

namespace Operation

variable {g : Graph} {slot : Slot} {es : Entries} {claimed : List Scalar} {s : String}

theorem claim_of_absent (absent : g.truthy (es.field "operationId") = false)
    (routed : slot.route.hasText = true) :
    claim g slot es claimed = fail (.missingOperationId slot.verb slot.route) := by
  unfold claim Scalar.textOf
  simp only [absent, routed, Bool.not_false, if_true, Except.ok_bind]

theorem claim_of_text (given : es.field "operationId" = .text s) (named : s ≠ "")
    (ids : List String) :
    claim g slot es (ids.map .text) =
      if s ∈ ids then fail (.duplicateOperationId (.text s)) else .ok (.text s) := by
  have truthy : g.truthy (.text s) = true := decide_eq_true named
  have taken : (ids.map Scalar.text).any (Scalar.text s).same = decide (s ∈ ids) := by
    rw [Bool.eq_iff_iff, List.any_eq_true, decide_eq_true_eq]
    simp [Scalar.text_same_iff]
  unfold claim
  rw [given]
  simp only [truthy, Bool.not_true, Bool.false_eq_true, if_false]
  change (if (ids.map Scalar.text).any (Scalar.text s).same then _ else _) = _
  rw [taken]
  by_cases member : s ∈ ids
  · rw [if_pos member, if_pos (decide_eq_true member)]
    rfl
  · rw [if_neg member, if_neg (by simpa using member)]
    rfl

end Operation

/-- An operation that is to be compiled, in its document. -/
structure Call where
  graph : Graph
  slot : Slot

namespace Call

/-- The fields of an operation. -/
def fields (c : Call) : Entries := c.graph.fields c.slot.operation

/-- The identifier that an operation gives; the empty one if it gives none. -/
def id (c : Call) : String :=
  match c.fields.field "operationId" with
  | .scalar (.text s) => s
  | _ => ""

/-- The operation is a mapping whose identifier is left out or a text, and its route can be named.
What the route declares for all its operations may well be malformed. -/
structure Regular (c : Call) : Prop where
  operation : c.graph.isMapping c.slot.operation = true
  id : c.fields.field "operationId" = .null ∨ ∃ s, c.fields.field "operationId" = .text s
  route : c.slot.route.hasText = true
  shared : StopsBy Stop.Elsewhere c.slot.shared

/-- Compiles an operation and gives the identifiers that are claimed afterwards. -/
def compile (c : Call) (claimed : List Scalar) : Result Operation × List Scalar :=
  Operation.compile c.graph c.slot claimed

/-- Compiles operations one after the other, all of them. For each there stands what became of it and
which identifiers are claimed afterwards. -/
def compileEach (claimed : List Scalar) : List Call → List (Result Operation × List Scalar)
  | [] => []
  | c :: rest => c.compile claimed :: compileEach (c.compile claimed).2 rest

/-- The operations that compile in a run. -/
def compiled (run : List (Result Operation × List Scalar)) : List Operation :=
  run.filterMap fun step => step.1.toOption

variable {c : Call} {calls : List Call} {ids : List String} {s : String}

/-! ### One step -/

theorem Regular.truthy_iff (regular : c.Regular) :
    c.graph.truthy (c.fields.field "operationId") = false ↔ c.id = "" := by
  unfold Call.id
  rcases regular.id with absent | ⟨s, given⟩
  · rw [absent]
    exact iff_of_true rfl rfl
  · rw [given]
    change decide (s ≠ "") = false ↔ s = ""
    simp

theorem Regular.field_eq (regular : c.Regular) (named : c.id ≠ "") :
    c.fields.field "operationId" = .text c.id := by
  unfold Call.id at named ⊢
  rcases regular.id with absent | ⟨s, given⟩
  · rw [absent] at named
    exact absurd rfl named
  · rw [given]
    rfl

/-- A step turns away an operation without an identifier and one whose identifier has been claimed.
It claims any other identifier, whatever stops the operation afterwards. -/
theorem Regular.compile_eq (regular : c.Regular) (ids : List String) :
    c.compile (ids.map .text) =
      if c.id = "" then (fail (.missingOperationId c.slot.verb c.slot.route), ids.map .text)
      else if c.id ∈ ids then (fail (.duplicateOperationId (.text c.id)), ids.map .text)
      else (Operation.compileClaimed c.graph c.slot c.fields (.text c.id),
        (ids ++ [c.id]).map .text) := by
  have entries : c.graph.entries c.slot.operation = .ok c.fields :=
    (Graph.entries_eq c.graph c.slot.operation).trans (if_pos regular.operation)
  unfold compile Operation.compile
  rw [entries]
  simp only
  by_cases absent : c.id = ""
  · rw [Operation.claim_of_absent (regular.truthy_iff.mpr absent) regular.route, if_pos absent]
    rfl
  · rw [Operation.claim_of_text (regular.field_eq absent) absent, if_neg absent]
    by_cases taken : c.id ∈ ids
    · rw [if_pos taken, if_pos taken]
      rfl
    · rw [if_neg taken, if_neg taken, List.map_append]
      rfl

/-- The identifiers that are claimed after an operation that gives this one. -/
def record (ids : List String) (id : String) : List String :=
  if id = "" ∨ id ∈ ids then ids else ids ++ [id]

theorem Regular.claims (regular : c.Regular) (ids : List String) :
    (c.compile (ids.map .text)).2 = (record ids c.id).map .text := by
  rw [regular.compile_eq, record]
  split_ifs <;> simp_all

theorem Regular.missing_iff (regular : c.Regular) (ids : List String) :
    (∃ verb route, (c.compile (ids.map .text)).1 = fail (.missingOperationId verb route)) ↔
      c.id = "" := by
  rw [regular.compile_eq]
  constructor
  · rintro ⟨verb, route, failed⟩
    by_contra named
    rw [if_neg named] at failed
    split_ifs at failed
    · cases failed
    · exact Operation.elsewhere_compileClaimed regular.shared _ _ _ failed
  · intro absent
    rw [if_pos absent]
    exact ⟨_, _, rfl⟩

theorem Regular.duplicate_iff (regular : c.Regular) (ids : List String) :
    (∃ id, (c.compile (ids.map .text)).1 = fail (.duplicateOperationId id)) ↔
      c.id ≠ "" ∧ c.id ∈ ids := by
  rw [regular.compile_eq]
  constructor
  · rintro ⟨id, failed⟩
    split_ifs at failed with absent taken
    · cases failed
    · exact ⟨absent, taken⟩
    · exact (Operation.elsewhere_compileClaimed regular.shared _ _ _ failed).elim
  · rintro ⟨named, taken⟩
    rw [if_neg named, if_pos taken]
    exact ⟨_, rfl⟩

/-- An operation that compiles has the identifier that it gives, which nothing had claimed. -/
theorem Regular.of_compiled (regular : c.Regular) {o : Operation}
    (success : (c.compile (ids.map .text)).1 = .ok o) : o.id = c.id ∧ c.id ≠ "" ∧ c.id ∉ ids := by
  rw [regular.compile_eq] at success
  split_ifs at success with absent taken
  · cases success
  · cases success
  · obtain ⟨identified, -⟩ := Operation.exists_parts success
    exact ⟨(Scalar.text.inj identified).symm, absent, taken⟩

/-! ### Runs -/

theorem mem_record : s ∈ record ids c.id ↔ s ∈ ids ∨ s ≠ "" ∧ s = c.id := by
  unfold record
  split_ifs with known
  · grind
  · grind

/-- The identifiers that are claimed after a list of operations. -/
def recordAll (ids : List String) (calls : List Call) : List String :=
  (calls.map id).foldl record ids

theorem mem_recordAll : s ∈ recordAll ids calls ↔ s ∈ ids ∨ s ≠ "" ∧ s ∈ calls.map id := by
  induction calls generalizing ids with
  | nil => simp [recordAll]
  | cons c calls ih =>
    rw [recordAll, List.map_cons, List.foldl_cons, ← recordAll, ih, mem_record, List.mem_cons]
    tauto

theorem length_compileEach (claimed : List Scalar) (calls : List Call) :
    (compileEach claimed calls).length = calls.length := by
  induction calls generalizing claimed with
  | nil => rfl
  | cons c calls ih => exact congrArg (· + 1) (ih _)

/-- A step of a run starts with what the steps before it have claimed. -/
theorem compileEach_getElem? (ids : List String) (regular : ∀ c ∈ calls, c.Regular) (i : Nat) :
    (compileEach (ids.map .text) calls)[i]? =
      calls[i]?.map fun c => c.compile ((recordAll ids (calls.take i)).map .text) := by
  induction calls generalizing ids i with
  | nil => simp [compileEach]
  | cons c calls ih =>
    cases i with
    | zero => rfl
    | succ i =>
      rw [compileEach, (regular c List.mem_cons_self).claims, List.getElem?_cons_succ,
        List.getElem?_cons_succ,
        ih _ fun c' member => regular c' (List.mem_cons_of_mem _ member)]
      rfl

/-- An operation that compiles at one step of a run has another identifier than those that give one at
the steps before. -/
theorem compiled_apart (regular : ∀ c ∈ calls, c.Regular) :
    ((compiled (compileEach [] calls)).map (·.id)).Nodup := by
  have step : ∀ i (_ : i < (compileEach [] calls).length) o,
      (compileEach [] calls)[i].1.toOption = some o →
      ∃ c, calls[i]? = some c ∧ o.id = c.id ∧ c.id ≠ "" ∧ c.id ∉ recordAll [] (calls.take i) := by
    intro i bound o success
    obtain ⟨c, here, run⟩ := Option.map_eq_some_iff.mp
      ((compileEach_getElem? [] regular i).symm.trans (List.getElem?_eq_getElem bound))
    refine ⟨c, here, (regular c (List.mem_of_getElem? here)).of_compiled ?_⟩
    rw [run]
    cases result : (compileEach [] calls)[i].1 with
    | error stop => rw [result] at success; cases success
    | ok o' => rw [result] at success; exact congrArg Except.ok (Option.some.inj success)
  unfold compiled List.Nodup
  rw [List.pairwise_map, List.pairwise_filterMap, List.pairwise_iff_getElem]
  intro i j boundI boundJ less o first o' second same
  obtain ⟨c, here, identified, named, -⟩ := step i boundI o first
  obtain ⟨c', -, identified', -, new⟩ := step j boundJ o' second
  refine new (mem_recordAll.mpr (.inr ⟨by rwa [← identified', ← same, identified], ?_⟩))
  rw [← identified', ← same, identified]
  exact List.mem_map_of_mem (List.mem_of_getElem? ((List.getElem?_take_of_lt less).trans here))

/-- In a run of compilations a step names a missing identifier exactly if it has none, and it names a
duplicate exactly if an earlier step has the same identifier, whatever became of that step. After
each step exactly the identifiers of the steps so far are claimed. The operations that compile have
identifiers of their own. -/
theorem each_identifier_is_claimed_once (regular : ∀ c ∈ calls, c.Regular) :
    (compileEach [] calls).length = calls.length ∧
    (∀ i c, calls[i]? = some c → ∃ r claimed, (compileEach [] calls)[i]? = some (r, claimed) ∧
      ((∃ verb route, r = fail (.missingOperationId verb route)) ↔ c.id = "") ∧
      ((∃ id, r = fail (.duplicateOperationId id)) ↔
        c.id ≠ "" ∧ ∃ earlier ∈ calls.take i, earlier.id = c.id) ∧
      (∀ key, key ∈ claimed ↔ ∃ so ∈ calls.take (i + 1), so.id ≠ "" ∧ key = .text so.id) ∧
      (∀ o, r = .ok o → o.id = c.id)) ∧
    ((compiled (compileEach [] calls)).map (·.id)).Nodup := by
  refine ⟨length_compileEach _ _, ?_, compiled_apart regular⟩
  intro i c here
  have own := regular c (List.mem_of_getElem? here)
  have at_i := (compileEach_getElem? [] regular i).trans (congrArg _ here)
  have before : c.id ≠ "" → (c.id ∈ recordAll [] (calls.take i) ↔
      ∃ earlier ∈ calls.take i, earlier.id = c.id) := by
    intro named
    rw [mem_recordAll, List.mem_map]
    simp [named]
  refine ⟨_, _, at_i, own.missing_iff _, ?_, ?_, fun o success => (own.of_compiled success).1⟩
  · exact (own.duplicate_iff _).trans (and_congr_right before)
  · have after : recordAll [] (calls.take (i + 1)) = record (recordAll [] (calls.take i)) c.id := by
      rw [List.take_add_one, here, recordAll, recordAll]
      simp
    intro key
    change key ∈ (c.compile _).2 ↔ _
    rw [own.claims, ← after, List.mem_map]
    simp only [mem_recordAll, List.mem_map, List.not_mem_nil, false_or]
    constructor
    · rintro ⟨_, ⟨named, so, member, rfl⟩, rfl⟩
      exact ⟨so, member, named, rfl⟩
    · rintro ⟨so, member, named, rfl⟩
      exact ⟨so.id, ⟨named, so, member, rfl⟩, rfl⟩

/-- Operations that show a pet and list all pets, and one without an identifier. -/
def petGraph : Graph :=
  ⟨#[.mapping [(.text "operationId", .text "showPet")], .mapping [],
     .mapping [(.text "operationId", .text "listPets")]]⟩

/-- The operation under a verb of a route, on its own. -/
def petCall (verb route : String) (operation : NodeId) : Call :=
  ⟨petGraph, ⟨verb, .text route, .node operation, .ok [], .null⟩⟩

/-- A pet is shown by two operations, and the pets are listed by two. -/
def petCalls : List Call :=
  [petCall "get" "/pets/{id}" 0, petCall "post" "/pets" 1, petCall "get" "/pet" 0,
   petCall "get" "/pets" 2, petCall "delete" "/pets" 2]

/-- The operation that shows a pet first is stopped, for its route has an undeclared placeholder, and
still keeps the other one from its identifier. -/
theorem stopped_operation_keeps_its_identifier :
    (∀ c ∈ petCalls, c.Regular) ∧
    (compileEach [] petCalls).map (fun step => step.1.map (·.id)) =
      [fail (.missingPathParameter "id" "showPet"), fail (.missingOperationId "post" (.text "/pets")),
       fail (.duplicateOperationId (.text "showPet")), .ok "listPets",
       fail (.duplicateOperationId (.text "listPets"))] ∧
    ∃ r claimed, (compileEach [] petCalls)[2]? = some (r, claimed) ∧
      (∃ id, r = fail (.duplicateOperationId id)) ∧ Scalar.text "showPet" ∈ claimed := by
  have regular : ∀ c ∈ petCalls, c.Regular := by
    intro c member
    have shape : c.graph.isMapping c.slot.operation = true ∧
        c.fields.field "operationId" ∈ [.null, .text "showPet", .text "listPets"] ∧
        c.slot.route.hasText = true := by
      revert c
      decide +kernel
    obtain ⟨mapping, id, route⟩ := shape
    refine ⟨mapping, ?_, route, ?_⟩
    · simp only [List.mem_cons, List.not_mem_nil, or_false] at id
      exact id.imp_right fun given => given.elim (fun h => ⟨_, h⟩) fun h => ⟨_, h⟩
    · obtain ⟨verb, path, operation, rfl⟩ : ∃ verb path operation, c = petCall verb path operation := by
        simp only [petCalls, List.mem_cons, List.not_mem_nil, or_false] at member
        rcases member with rfl | rfl | rfl | rfl | rfl <;> exact ⟨_, _, _, rfl⟩
      exact .ok _
  obtain ⟨-, steps, -⟩ := each_identifier_is_claimed_once regular
  obtain ⟨r, claimed, here, -, duplicate, claims, -⟩ := steps 2 (petCall "get" "/pet" 0) rfl
  refine ⟨regular, by decide +kernel, r, claimed, here, duplicate.mpr ⟨by decide +kernel, ?_⟩,
    (claims _).mpr ?_⟩
  · exact ⟨petCall "get" "/pets/{id}" 0, List.mem_cons_self, rfl⟩
  · exact ⟨petCall "get" "/pets/{id}" 0, List.mem_cons_self, by decide +kernel, rfl⟩

end Call

end TypedClient
