import Blackboard.Programs.Geometry
import Blackboard.Proofs.Scheduler.Opening

/-!
# What the geometry program measures

The rules of the geometry program take the corner points in the order in which they are
stored. Up to the first payload that is no set of corner points every entity is measured
(`Scheduler.Led.geometry_measures_entities`), whatever comes after. There the rules fail, as
any rule does, and what comes after is passed over for the tick
(`Scheduler.geometry_passes_over_later_entities`).
-/

namespace Blackboard

namespace Programs.Geometry

/-! ## Matches -/

/-- What the rules for sizes and centers wait for. -/
def cornered (names : Dimensions) : Claim :=
  { name := names.corners, args := [.var "object", .var "points"] }

/-- The match of an entity and what stands for its corner points. -/
def about (object points : Value) : Match :=
  ((∅ : Match).bind "object" object).bind "points" points

/-- Tuples of two values are matched, whatever the values are. -/
theorem fit?_cornered (names : Dimensions) (tuple : Tuple) :
    (cornered names).fit? ∅ tuple =
      match tuple with
      | [object, points] => some (about object points)
      | _ => none := by
  unfold Claim.fit? cornered
  match tuple with
  | [] => rfl
  | [_] => rfl
  | _ :: _ :: _ :: _ => simp
  | [object, points] =>
      have unbound : ((∅ : Match).bind "object" object).get? "points" = none := by
        simp [Match.get?_bind]
      simp only [List.length_cons, List.length_nil, if_true, List.zip_cons_cons, List.zip_nil_left,
        Match.fit?_var_of_unbound (Match.get?_empty "object"), Match.fit?_var_of_unbound unbound,
        Match.fit?_nil, about]

theorem objectAndPoints_about (object points : Value) :
    objectAndPoints (about object points) =
      match points.corners? with
      | some corners => .ok (object, corners)
      | none => .error (.callback "'points' is not a set of corner points") := by
  have boundObject : (about object points).get? "object" = some object := by
    simp [about, Match.get?_bind]
  have boundPoints : (about object points).get? "points" = some points := by
    simp [about, Match.get?_bind]
  unfold objectAndPoints Match.require
  rw [boundObject, boundPoints, Option.bind_some]
  cases points.corners? <;> rfl

/-- A callback makes claims about an entity by its corner points. For anything else in their
place it fails. -/
def Measures (callback : Context → Match → Reaction)
    (claims : Context → Value → Corners → List Action) : Prop :=
  ∀ context object points, callback context (about object points) =
    match points.corners? with
    | some corners => ⟨claims context object corners, .done⟩
    | none => ⟨[], .failed (.callback "'points' is not a set of corner points")⟩

theorem measures_claimSize (names : Dimensions) :
    Measures (claimSize names) fun _ object corners =>
      [.assert (.fact names.width [object, .float corners.width]),
        .assert (.fact names.height [object, .float corners.height])] := by
  intro context object points
  rw [claimSize, objectAndPoints_about]
  cases points.corners? <;> rfl

theorem measures_claimCenter (names : Dimensions) :
    Measures (claimCenter names) fun context object corners =>
      [.assert (.fact names.center [object, made context corners.center])] := by
  intro context object points
  rw [claimCenter, objectAndPoints_about]
  cases points.corners? <;> rfl

/-- No tuple of two values has a payload that is no set of corner points. -/
def Decodable (tuples : List Tuple) : Prop :=
  ∀ object points, [object, points] ∈ tuples → points.corners? ≠ none

/-- What a rule finds among tuples, around one of them. -/
theorem filterMap_cornered (names : Dimensions) {tuples before after : List Tuple}
    {object points : Value} (split : tuples = before ++ [object, points] :: after) :
    tuples.filterMap ((cornered names).fit? ∅) =
      before.filterMap ((cornered names).fit? ∅) ++
        about object points :: after.filterMap ((cornered names).fit? ∅) := by
  rw [split, List.filterMap_append, List.filterMap_cons_some (fit?_cornered names _)]

theorem exists_points_of_found {names : Dimensions} {tuples : List Tuple} {m : Match}
    (found : m ∈ tuples.filterMap ((cornered names).fit? ∅)) :
    ∃ object points, [object, points] ∈ tuples ∧ m = about object points := by
  obtain ⟨tuple, listed, fitted⟩ := List.mem_filterMap.mp found
  rw [fit?_cornered] at fitted
  split at fitted
  · exact ⟨_, _, listed, (Option.some.inj fitted).symm⟩
  · cases fitted

/-! ## Rules -/

/-- The rules for one unit, as they are registered in a tick. -/
def sizeRule (tick : Nat) : Rule where
  id := .item (.registration tick geometry.id) 0
  body := .each [cornered pixels] (claimSize pixels)
  source := geometry.id
  isDynamic := false

def centerRule (tick : Nat) : Rule where
  id := .item (.registration tick geometry.id) 1
  body := .each [cornered pixels] (claimCenter pixels)
  source := geometry.id
  isDynamic := false

theorem registration_rules (tick : Nat) :
    sizeRule tick ∈ (geometry.registration tick).rules ∧
      centerRule tick ∈ (geometry.registration tick).rules := by
  have registered : (geometry.registration tick).rules =
      rules.zipIdx.filterMap fun placed =>
        (geometry.context tick).rule? placed.2 placed.1 := rfl
  rw [registered]
  constructor
  · exact List.mem_filterMap.mpr ⟨(_, 0), List.mk_mem_zipIdx_iff_getElem?.mpr rfl, rfl⟩
  · exact List.mem_filterMap.mpr ⟨(_, 1), List.mk_mem_zipIdx_iff_getElem?.mpr rfl, rfl⟩

/-- The width, the height and the center of an entity, as the program claims them. -/
structure Measured (world : World) (object : Value) (corners : Corners) : Prop where
  width : { Claim.fact hasWidth [object, .float corners.width] with
    source := geometry.id, isDynamic := true } ∈ world.claims
  height : { Claim.fact hasHeight [object, .float corners.height] with
    source := geometry.id, isDynamic := true } ∈ world.claims
  center : ∃ origin, { Claim.fact BaseFacts.hasCenterPoint
    [object, .structured origin corners.center.payload] with
      source := geometry.id, isDynamic := true } ∈ world.claims

/-- The error that the rule at an index leaves behind when it comes to something that is no
set of corner points. -/
def undecodable (started index : Nat) : ErrorEntry where
  source := geometry.id
  isDynamic := true
  message := (Failure.callbackFailed "'points' is not a set of corner points").message
  site := some (.item (.registration started geometry.id) index)

end Programs.Geometry

namespace Scheduler

open Programs Programs.Geometry

/-- What a rule that measures entities does for one of them, if it does not fail before, is
part of the world after the tick: its claims, or its failure. -/
theorem effect_isPart_of_measures {s s' : Scheduler} {patience : Nat} {millis : Int64}
    {programs : List Program} {report : TickReport}
    (ticked : s.tick? patience millis programs = some (report, s')) {names : Dimensions}
    {rule : Rule} (listed : rule ∈ (s.synced programs).world.rules)
    {callback : Context → Match → Reaction} (body : rule.body = .each [cornered names] callback)
    {claims : Context → Value → Corners → List Action} (measures : Measures callback claims)
    {before after : List Tuple} {object points : Value}
    (split : (s.opening (s.synced programs) millis programs).database.store.facts names.corners =
      before ++ [object, points] :: after)
    (decodable : Decodable before) :
    ∃ turn, (rule.effect (rule.context (s.ticks + 1) turn)
      (callback (rule.context (s.ticks + 1) turn) (about object points))).IsPart
        s'.board.world := by
  have indexed : (s.opening (s.synced programs) millis programs).database.store.Indexed := by
    rw [store_opening]
    exact Store.indexed_empty.insertAll _
  have found : (s.opening (s.synced programs) millis programs).found rule =
      before.filterMap ((cornered names).fit? ∅) ++
        about object points :: after.filterMap ((cornered names).fit? ∅) := by
    have patterns : rule.patterns = [cornered names] := by rw [Rule.patterns, body]; rfl
    rw [Settling.found, patterns, indexed.answer_singleton_found]
    exact filterMap_cornered names split
  refine ⟨_, effect_isPart_of_tick ticked listed body found fun m member turn fails => ?_⟩
  obtain ⟨object, points, earlier, rfl⟩ := exists_points_of_found member
  obtain ⟨corners, decoded⟩ := Option.ne_none_iff_exists'.mp (decodable object points earlier)
  rw [Rule.Fails, measures, decoded] at fails
  exact fails rfl

/-- In a tick in which the built-in geometry program is running, the entities with corner
points are measured in the order in which they are stored, up to the first payload that does
not decode: every entity before it has its width, its height and its center, computed from
its own payload, whatever comes later and wherever programs lie. There, the rules fail for
the tick, and say so. -/
theorem Led.geometry_measures_entities {s s' : Scheduler} {history : List (List Program)}
    (led : s.Led history) {patience : Nat} {millis : Int64} {programs : List Program}
    {report : TickReport} (running : geometry.ListedIn programs)
    (builtIn : ∀ other ∈ (history ++ [programs]).flatten, other.SameVersion geometry →
      other.registrar = geometry.registrar)
    (ticked : s.tick? patience millis programs = some (report, s')) :
    ∀ before object points after,
      (s.opening (s.synced programs) millis programs).database.store.facts
        BaseFacts.hasCornerPoints = before ++ [object, points] :: after →
      Decodable before →
      (∀ corners, points.corners? = some corners → Measured s'.board.world object corners) ∧
        (points.corners? = none → ∃ started, undecodable started 0 ∈ s'.board.world.errors ∧
          undecodable started 1 ∈ s'.board.world.errors) := by
  intro before object points after split decodable
  obtain ⟨started, registered⟩ := led.exists_registration running builtIn
  obtain ⟨size, center⟩ := registration_rules started
  obtain ⟨sizeTurn, sized⟩ := effect_isPart_of_measures ticked (registered size) rfl
    (measures_claimSize pixels) split decodable
  obtain ⟨centerTurn, centered⟩ := effect_isPart_of_measures ticked (registered center) rfl
    (measures_claimCenter pixels) split decodable
  rw [measures_claimSize pixels] at sized
  rw [measures_claimCenter pixels] at centered
  constructor
  · intro corners decoded
    rw [decoded] at sized centered
    exact
      { width := sized.claims List.mem_cons_self
        height := sized.claims (List.mem_cons_of_mem _ List.mem_cons_self)
        center := ⟨_, centered.claims List.mem_cons_self⟩ }
  · intro undecoded
    rw [undecoded] at sized centered
    exact ⟨started, sized.errors List.mem_cons_self, centered.errors List.mem_cons_self⟩

/-- The geometry program counts beside programs of another name, and nothing else is taken
for it. -/
theorem geometry_listed_beside {other : Program} (named : other.id ≠ geometry.id) :
    geometry.ListedIn [other, geometry] ∧
      ∀ program ∈ [other, geometry], program.SameVersion geometry →
        program.registrar = geometry.registrar := by
  constructor
  · have kept : Program.firstById [other, geometry] = [other, geometry] := by
      simp [Program.firstById, Ne.symm named]
    exact ⟨geometry, by rw [kept]; simp, .refl geometry⟩
  · intro program member version
    rcases List.mem_pair.mp member with rfl | rfl
    · exact absurd version.1 named
    · rfl

/-- A program that claims corner points, whether they are corner points or not. -/
def careless (entries : List (String × Value)) : Program :=
  { id := ⟨"1"⟩, codeHash := ⟨"v1"⟩
    registrar := fun _ =>
      ⟨entries.map fun (name, points) =>
        .assert (.fact BaseFacts.hasCornerPoints [.text name, points]), .done⟩ }

theorem id_careless_ne (entries : List (String × Value)) : (careless entries).id ≠ geometry.id := by
  simp [careless, geometry, Program.ofSource]

/-- A right triangle, given by corners two of which are the same. The edge at the top is 500
long, that at the bottom 300, and that on the right 400. -/
def triangle : Corners where
  topLeft := ⟨0, 0⟩
  topRight := ⟨300, 400⟩
  bottomRight := ⟨300, 0⟩
  bottomLeft := ⟨0, 0⟩

/-- The triangle as a careless program makes it when it starts in the first tick. -/
def trianglePayload : Value := .structured (.item (.registration 1 ⟨"1"⟩) 0) triangle.payload

/-- A scheduler whose clock stands still. -/
def timeless : Scheduler := { settings := {}, baseFacts := BaseFacts.core {} (some 0) }

/-- Someone who is given corner points is measured, though someone stored behind is given a
number. There the rules fail. The width is the mean of the edges at the top and the bottom, the
height that of the edges on both sides, and the center the mean of the corners. -/
theorem geometry_measures_entities_of_careless :
    let programs := [careless [("Homer", trianglePayload), ("Bart", .int 5)], geometry]
    ∃ report s', timeless.tick? 2 0 programs = some (report, s') ∧
      Measured s'.board.world (.text "Homer") triangle ∧
      triangle.width = 400 ∧ triangle.height = 200 ∧ triangle.center = ⟨150, 100⟩ ∧
      ∃ started, undecodable started 0 ∈ s'.board.world.errors ∧
        undecodable started 1 ∈ s'.board.world.errors := by
  intro programs
  have evaluated : (timeless.tick? 2 0 programs).isSome = true := by decide +kernel
  obtain ⟨⟨report, s'⟩, ticked⟩ := Option.isSome_iff_exists.mp evaluated
  obtain ⟨listed, faithful⟩ := geometry_listed_beside (id_careless_ne _)
  have outcome := (Led.initial {} (BaseFacts.core {} (some 0))).geometry_measures_entities listed
    (by simpa using faithful) ticked
  have stored : (timeless.opening (timeless.synced programs) 0 programs).database.store.facts
      BaseFacts.hasCornerPoints =
        [[.text "Homer", trianglePayload], [.text "Bart", .int 5], [BaseFacts.table,
          BaseFacts.supplied ⟨1, 0⟩ 0 (Corners.rectangle 1280 720).payload]] := by
    rw [facts_opening]
    rfl
  have decodes : trianglePayload.corners? = some triangle := by decide +kernel
  refine ⟨report, s', ticked, ?_, by decide +kernel, by decide +kernel, by decide +kernel, ?_⟩
  · exact (outcome [] _ _ _ stored nofun).1 _ decodes
  · refine (outcome [[.text "Homer", trianglePayload]] _ _ _ stored ?_).2 rfl
    intro object points member
    obtain ⟨-, rfl⟩ : object = .text "Homer" ∧ points = trianglePayload := by simpa using member
    simp [decodes]

/-- Nothing is claimed about the size of the table if something stored before it is given a
number, though the points of the table are what they always are. -/
theorem geometry_passes_over_later_entities :
    let programs := [careless [("Bart", .int 5)], geometry]
    timeless.Led [] ∧ geometry.ListedIn programs ∧
      ∃ report s' points corners, timeless.tick? 2 0 programs = some (report, s') ∧
        [BaseFacts.table, points] ∈
          (timeless.opening (timeless.synced programs) 0 programs).database.store.facts
            BaseFacts.hasCornerPoints ∧
        points.corners? = some corners ∧
        ¬ Measured s'.board.world BaseFacts.table corners := by
  intro programs
  have evaluated : ((timeless.tick? 2 0 programs).any fun (_, s') =>
      s'.board.world.claims.all fun claim => claim.name != hasWidth) = true := by
    decide +kernel
  obtain ⟨⟨report, s'⟩, ticked, silent⟩ := (Option.any_eq_true _ _).mp evaluated
  obtain ⟨listed, -⟩ := geometry_listed_beside (id_careless_ne _)
  have stored : (timeless.opening (timeless.synced programs) 0 programs).database.store.facts
      BaseFacts.hasCornerPoints =
        [[.text "Bart", .int 5], [BaseFacts.table,
          BaseFacts.supplied ⟨1, 0⟩ 0 (Corners.rectangle 1280 720).payload]] := by
    rw [facts_opening]
    rfl
  refine ⟨.initial {} (BaseFacts.core {} (some 0)), listed, report, s', _,
    Corners.rectangle 1280 720, ticked, stored ▸ List.mem_cons_of_mem _ List.mem_cons_self,
    by decide +kernel, fun measured => ?_⟩
  simpa [Claim.fact] using List.all_eq_true.mp silent _ measured.width

end Scheduler

end Blackboard
