import Blackboard.Proofs.Json.Canonical
import Blackboard.Proofs.Match.Bindings
import Blackboard.Wire.Settings
import Blackboard.Wire.Value

/-!
# What is written is read back

Everything that goes over the wire is written as a document and read from one. What is read
back is what was written: kinds, texts and the order of arguments stay, and a number keeps
its pattern. A structured value comes back with the same document as a new instance, made at
the place that the reader is told (`Value.remade`). A number that is not finite is written as
`null`, and what holds one is refused when it is read, also where a field may be left out
(`Json.wire_types_round_trip`).
-/

namespace Blackboard

/-! ## Parts of documents -/

namespace Json

theorem number?_ofBinary64 (x : Binary64) :
    (ofBinary64 x).number? = if x.isFinite then some x else none := by
  unfold ofBinary64
  split <;> rfl

theorem int64?_int (n : Int64) : (int n.toInt).int64? = some n := by
  have lower := n.le_toInt
  have upper := n.toInt_lt
  rw [int64?, if_pos ⟨lower, upper⟩, Int64.ofInt_toInt]

theorem uint64?_int (n : UInt64) : (int n.toNat).uint64? = some n := by
  have upper := n.toNat_lt
  rw [uint64?, if_pos (by omega)]
  simp

/-- The members of an object that are fields of a record, each once. -/
theorem fields?_object {names : List String} {members : List (String × Json)}
    (known : ∀ member ∈ members, member.1 ∈ names) (distinct : (members.map Prod.fst).Nodup) :
    fields? names (object members) = some members := by
  have all : (members.filter fun member => names.contains member.1) = members :=
    List.filter_eq_self.mpr fun member listed => by simpa using known member listed
  rw [fields?, all, if_pos distinct]

/-- Items that are written one by one are read one by one, each at its index. -/
theorem mapM_zipIdx_map {α β γ : Type} {encode : α → β} {read? : β × Nat → Option γ}
    {isFine : α → Bool} {remade : Nat → α → γ}
    (reads : ∀ index item, read? (encode item, index) =
      if isFine item then some (remade index item) else none) (items : List α) :
    (items.map encode).zipIdx.mapM read? =
      if items.all isFine then some (items.mapIdx remade) else none := by
  suffices general : ∀ first, ((items.map encode).zipIdx first).mapM read? =
      if items.all isFine then some ((items.zipIdx first).map fun placed =>
        remade placed.2 placed.1) else none by
    rw [general, List.mapIdx_eq_zipIdx_map]
  intro first
  induction items generalizing first with
  | nil => rfl
  | cons item items ih =>
      rw [List.map_cons, List.zipIdx_cons, List.mapM_cons, reads, ih]
      cases here : isFine item <;> cases further : items.all isFine <;> simp [here, further]

end Json

/-- A field that is there is read, whatever its default. -/
theorem Fields.optional_of_lookup {α : Type} {fields : Fields} {name : String} {document : Json}
    (found : fields.lookup name = some document) (read? : Json → Option α) (default : α) :
    fields.optional name read? default = read? document := by
  rw [optional, found]

/-! ## Values that are made anew -/

namespace Origin

/-- A place, or a place of something that was made there. -/
inductive Within (place : Origin) : Origin → Prop where
  | here : Within place place
  | item {inner : Origin} (inside : Within place inner) (index : Nat) :
      Within place (.item inner index)

end Origin

namespace Value

/-- Neither a NaN nor an infinity. The numbers in the document of a structured value do not
count. -/
def isFinite : Value → Bool
  | float x => x.isFinite
  | _ => true

/-- The value, a structured one with its document as a new instance. -/
def remade (place : Origin) : Value → Value
  | structured _ payload => structured place payload
  | value => value

/-- The value is no instance that was made within a place. -/
def Foreign (place : Origin) (value : Value) : Prop :=
  ∀ origin payload, value = structured origin payload → ¬ place.Within origin

theorem decode?_tag (place : Origin) (kind : String) (content : Json) :
    decode? place (.tag kind content) = ofContent? place kind content := rfl

theorem decode?_encode (place : Origin) (value : Value) :
    decode? place value.encode = if value.isFinite then some (value.remade place) else none := by
  cases value with
  | bool b => rfl
  | int n => simp [encode, kind, decode?_tag, ofContent?, Json.int64?_int, isFinite, remade]
  | float x =>
      cases finite : x.isFinite <;> simp [encode, kind, decode?_tag, ofContent?,
        Json.number?_ofBinary64, isFinite, remade, finite]
  | text s => rfl
  | structured origin payload =>
      simp [encode, kind, decode?_tag, ofContent?, Payload.ofJson?_document, isFinite, remade]
  | null => rfl

/-- A value that is read back equals the one that was written unless it is structured. -/
theorem remade_beq_iff {place : Origin} {value : Value} (finite : value.isFinite = true)
    (foreign : value.Foreign place) :
    (value.remade place == value) = true ↔ value.isStructured = false := by
  cases value with
  | structured origin payload =>
      have different : place ≠ origin := by
        rintro rfl
        exact foreign _ payload rfl .here
      exact iff_of_false (fun same => different (beq_iff_eq.mp same)) (by simp [isStructured])
  | float x =>
      have number : ¬ (float x).IsNaN := by
        rintro ⟨_, same, nan⟩
        obtain rfl := Value.float.inj same
        simp only [isFinite, Binary64.isFinite, decide_eq_true_eq] at finite
        simp only [Binary64.isNaN, Bool.and_eq_true, beq_iff_eq] at nan
        omega
      exact iff_of_true ((float x).beq_self_iff.mpr number) rfl
  | bool _ | int _ | text _ | null =>
      refine iff_of_true ((beq_self_iff _).mpr ?_) rfl
      rintro ⟨_, same, _⟩
      cases same

end Value

namespace Arg

/-- The values that an argument holds. -/
def values (arg : Arg) : List Value := arg.value?.toList

def remade (place : Origin) : Arg → Arg
  | val value => val (value.remade place)
  | var name => var name

theorem decode?_encode (place : Origin) (arg : Arg) :
    decode? place arg.encode =
      if arg.values.all Value.isFinite then some (arg.remade place) else none := by
  cases arg with
  | val value =>
      have read : decode? place (encode (val value)) =
          (Value.decode? place value.encode).map val := rfl
      rw [read, Value.decode?_encode]
      cases finite : value.isFinite <;> simp [values, value?, remade, finite]
  | var name => rfl

theorem remade_beq_iff {place : Origin} {arg : Arg}
    (finite : arg.values.all Value.isFinite = true)
    (foreign : ∀ value ∈ arg.values, value.Foreign place) :
    (arg.remade place == arg) = true ↔ ∀ value ∈ arg.values, value.isStructured = false := by
  cases arg with
  | val value =>
      have same : (remade place (val value) == val value) = (value.remade place == value) := rfl
      rw [same, Value.remade_beq_iff (by simpa [values, value?] using finite)
        (foreign value (by simp [values, value?]))]
      simp [values, value?]
  | var name =>
      have same : (remade place (var name) == var name) = (name == name) := rfl
      simp [same, values, value?]

end Arg

/-! ## Many at once -/

/-- A list with each item replaced equals the list where each replacement equals the item. -/
theorem mapIdx_beq_iff {α : Type} [BEq α] {remade : Nat → α → α} {holds : α → Prop}
    {items : List α}
    (pointwise : ∀ index, ∀ item ∈ items, (remade index item == item) = true ↔ holds item) :
    (items.mapIdx remade == items) = true ↔ ∀ item ∈ items, holds item := by
  induction items generalizing remade with
  | nil => simp
  | cons item items ih =>
      rw [List.mapIdx_cons, List.cons_beq_cons, Bool.and_eq_true, List.forall_mem_cons,
        pointwise 0 item List.mem_cons_self,
        ih fun index other listed => pointwise (index + 1) other (List.mem_cons_of_mem _ listed)]

namespace Value

/-- A place within another one. -/
theorem Foreign.item {place : Origin} {value : Value} (foreign : value.Foreign place)
    (index : Nat) : value.Foreign (.item place index) := by
  intro origin payload same within
  refine foreign origin payload same ?_
  clear same
  induction within with
  | here => exact .item .here index
  | item _ other ih => exact .item ih other

end Value

namespace Claim

/-- The values that a claim holds. -/
def values (claim : Claim) : List Value := claim.args.flatMap Arg.values

def remade (place : Origin) (claim : Claim) : Claim :=
  { claim with args := claim.args.mapIdx fun index arg => arg.remade (.item place index) }

theorem decode?_encode (place : Origin) (claim : Claim) :
    decode? place claim.encode =
      if claim.values.all Value.isFinite then some (claim.remade place) else none := by
  have args : ((claim.args.map Arg.encode).zipIdx.mapM fun placed =>
      Arg.decode? (.item place placed.2) placed.1) =
        if claim.args.all fun arg => arg.values.all Value.isFinite then
          some (claim.args.mapIdx fun index arg => arg.remade (.item place index))
        else none :=
    Json.mapM_zipIdx_map (fun index arg => arg.decode?_encode (.item place index)) claim.args
  have read : decode? place claim.encode =
      ((claim.args.map Arg.encode).zipIdx.mapM fun placed =>
        Arg.decode? (.item place placed.2) placed.1).bind fun args => some { claim with args } := by
    simp [decode?, encode, Json.fields?, Fields.required, Fields.optional, List.lookup_cons,
      Json.items?, ProgramId.decode?, ProgramId.encode, Json.text?, Json.bool?]
  rw [read, args, values, List.all_flatMap]
  split <;> rfl

theorem remade_beq_iff {place : Origin} {claim : Claim}
    (finite : claim.values.all Value.isFinite = true)
    (foreign : ∀ value ∈ claim.values, value.Foreign place) :
    (claim.remade place == claim) = true ↔ ∀ value ∈ claim.values, value.isStructured = false := by
  have same : (claim.remade place == claim) = (claim.name == claim.name &&
      (claim.remade place).args == claim.args && claim.source == claim.source &&
      claim.isDynamic == claim.isDynamic) := rfl
  rw [values, List.all_flatMap, List.all_eq_true] at finite
  have pointwise : ∀ index, ∀ arg ∈ claim.args, (arg.remade (.item place index) == arg) = true ↔
      ∀ value ∈ arg.values, value.isStructured = false := by
    intro index arg listed
    refine Arg.remade_beq_iff (finite arg listed) fun value held => ?_
    exact (foreign value (List.mem_flatMap_of_mem listed held)).item index
  rw [same]
  simp only [BEq.rfl, Bool.true_and, Bool.and_true, remade, mapIdx_beq_iff pointwise, values,
    List.forall_mem_flatMap]

end Claim

namespace Match

/-- The values that a match binds variables to. -/
def values (m : Match) : List Value := m.toList.map Prod.snd

def remade (place : Origin) (m : Match) : Match :=
  ofList (m.toList.mapIdx fun index binding =>
    (binding.1, binding.2.remade (.item place index)))

/-- A match that is made anew binds the same variables. -/
theorem toList_remade (place : Origin) (m : Match) :
    (m.remade place).toList = m.toList.mapIdx fun index binding =>
      (binding.1, binding.2.remade (.item place index)) := by
  refine toList_ofList ?_
  have sameNames : (m.toList.mapIdx fun index binding =>
      (binding.1, binding.2.remade (.item place index))).map Prod.fst = m.toList.map Prod.fst :=
    List.ext_getElem (by simp) (by simp)
  have ascending := m.ascending_toList
  rw [← List.pairwise_map (f := Prod.fst) (R := fun x y => compare x y = .lt)] at ascending ⊢
  rw [sameNames]
  exact ascending

theorem decode?_encode (place : Origin) (m : Match) :
    decode? place m.encode =
      if m.values.all Value.isFinite then some (m.remade place) else none := by
  have bindings : ((m.toList.map fun binding => (binding.1, binding.2.encode)).zipIdx.mapM
      fun placed => (Value.decode? (.item place placed.2) placed.1.2).map fun value =>
        (placed.1.1, value)) =
        if m.toList.all (Value.isFinite ∘ Prod.snd) then
          some (m.toList.mapIdx fun index binding =>
            (binding.1, binding.2.remade (.item place index)))
        else none := by
    refine Json.mapM_zipIdx_map (fun index binding => ?_) m.toList
    rw [Value.decode?_encode, Function.comp_apply]
    split <;> rfl
  have read : decode? place m.encode =
      ((m.toList.map fun binding => (binding.1, binding.2.encode)).zipIdx.mapM fun placed =>
        (Value.decode? (.item place placed.2) placed.1.2).map fun value =>
          (placed.1.1, value)).bind fun bindings => some (ofList bindings) := by
    simp [decode?, encode]
  rw [read, bindings, values, List.all_map]
  split <;> rfl

theorem remade_beq_iff {place : Origin} {m : Match} (finite : m.values.all Value.isFinite = true)
    (foreign : ∀ value ∈ m.values, value.Foreign place) :
    (m.remade place == m) = true ↔ ∀ value ∈ m.values, value.isStructured = false := by
  have same : (m.remade place == m) = ((m.remade place).toList == m.toList) := rfl
  rw [values, List.all_map, List.all_eq_true] at finite
  have pointwise : ∀ index, ∀ binding ∈ m.toList,
      ((binding.1, binding.2.remade (.item place index)) == binding) = true ↔
        binding.2.isStructured = false := by
    intro index binding listed
    have parts : ((binding.1, binding.2.remade (.item place index)) == binding) =
        (binding.1 == binding.1 && binding.2.remade (.item place index) == binding.2) := rfl
    rw [parts, BEq.rfl, Bool.true_and]
    exact Value.remade_beq_iff (finite binding listed)
      ((foreign binding.2 (List.mem_map_of_mem listed)).item index)
  simp only [same, toList_remade, mapIdx_beq_iff pointwise, values, List.forall_mem_map]

end Match

/-! ## Geometry and settings -/

/-- What is done with a value that is there under a condition. -/
theorem bind_guarded {α β : Type} (condition : Bool) (value : α) (next : α → Option β) :
    (if condition then some value else none).bind next =
      if condition then next value else none := by
  cases condition <;> rfl

theorem guarded_and (first second : Bool) {α : Type} (value : Option α) :
    (if first then if second then value else none else none) =
      if first && second then value else none := by
  cases first <;> rfl

namespace Point

def numbers (p : Point) : List Binary64 := [p.x, p.y]

theorem ofJson?_toJson (p : Point) :
    ofJson? p.toJson = if p.numbers.all Binary64.isFinite then some p else none := by
  have read : ofJson? p.toJson = (Json.ofBinary64 p.x).number?.bind fun x =>
      (Json.ofBinary64 p.y).number?.bind fun y => some ⟨x, y⟩ := rfl
  rw [read]
  simp only [Json.number?_ofBinary64, bind_guarded, guarded_and]
  simp [numbers]

end Point

namespace Corners

def numbers (corners : Corners) : List Binary64 :=
  corners.topLeft.numbers ++ corners.topRight.numbers ++ corners.bottomRight.numbers ++
    corners.bottomLeft.numbers

theorem ofJson?_toJson (corners : Corners) :
    ofJson? corners.toJson =
      if corners.numbers.all Binary64.isFinite then some corners else none := by
  have read : ofJson? corners.toJson =
      (Point.ofJson? corners.topLeft.toJson).bind fun topLeft =>
      (Point.ofJson? corners.topRight.toJson).bind fun topRight =>
      (Point.ofJson? corners.bottomRight.toJson).bind fun bottomRight =>
      (Point.ofJson? corners.bottomLeft.toJson).bind fun bottomLeft =>
        some ⟨topLeft, topRight, bottomRight, bottomLeft⟩ := rfl
  rw [read]
  simp only [Point.ofJson?_toJson, bind_guarded, guarded_and, numbers, List.all_append,
    Bool.and_assoc]

end Corners

namespace Placement

def numbers (placement : Placement) : List Binary64 :=
  placement.corners.numbers ++ placement.center.numbers

theorem ofJson?_toJson (placement : Placement) :
    ofJson? placement.toJson =
      if placement.numbers.all Binary64.isFinite then some placement else none := by
  have read : ofJson? placement.toJson =
      (Corners.ofJson? placement.corners.toJson).bind fun corners =>
      (Point.ofJson? placement.center.toJson).bind fun center => some ⟨corners, center⟩ := rfl
  rw [read]
  simp only [Corners.ofJson?_toJson, Point.ofJson?_toJson, bind_guarded, guarded_and, numbers,
    List.all_append]

end Placement

namespace Viewport

def numbers (viewport : Viewport) : List Binary64 := [viewport.width, viewport.height]

theorem ofJson?_toJson (viewport : Viewport) :
    ofJson? viewport.toJson =
      if viewport.numbers.all Binary64.isFinite then some viewport else none := by
  have read : ofJson? viewport.toJson = (Json.ofBinary64 viewport.width).number?.bind fun width =>
      (Json.ofBinary64 viewport.height).number?.bind fun height => some ⟨width, height⟩ := rfl
  rw [read]
  simp only [Json.number?_ofBinary64, bind_guarded, guarded_and]
  simp [numbers]

end Viewport

theorem TelemetrySettings.decode?_encode (settings : TelemetrySettings) :
    decode? settings.encode = some settings := by
  have fields : Json.fields? ["interval_ms", "queue_capacity"] settings.encode =
      some [("interval_ms", .int settings.intervalMillis.toNat),
        ("queue_capacity", .int settings.queueCapacity.toNat)] :=
    Json.fields?_object (by simp) (by simp)
  unfold decode?
  rw [fields, Option.bind_eq_bind, Option.bind_some]
  dsimp only
  rw [Fields.optional_of_lookup rfl, Fields.optional_of_lookup rfl, Json.uint64?_int,
    Json.uint64?_int]
  rfl

namespace Settings

def numbers (settings : Settings) : List Binary64 := settings.viewport.numbers

theorem decode?_encode (settings : Settings) :
    decode? settings.encode =
      if settings.numbers.all Binary64.isFinite then some settings else none := by
  obtain ⟨limit, limitRead, written⟩ : ∃ limit,
      Json.nullable? Json.uint64? limit = some settings.maxSettleIterations ∧
      settings.encode = .object [("max_settle_iterations", limit),
        ("viewport", settings.viewport.toJson), ("telemetry", settings.telemetry.encode)] := by
    refine ⟨_, ?_, rfl⟩
    cases settings.maxSettleIterations with
    | none => rfl
    | some limit =>
        rw [Json.nullable?, Json.uint64?_int]
        · rfl
        · exact Json.noConfusion
  have fields : Json.fields? ["max_settle_iterations", "viewport", "telemetry"]
      settings.encode = some [("max_settle_iterations", limit),
        ("viewport", settings.viewport.toJson), ("telemetry", settings.telemetry.encode)] := by
    rw [written]
    exact Json.fields?_object (by simp) (by simp)
  unfold decode?
  rw [fields, Option.bind_eq_bind, Option.bind_some]
  dsimp only
  rw [Fields.optional_of_lookup rfl, Fields.optional_of_lookup rfl, Fields.optional_of_lookup rfl,
    limitRead, settings.viewport.ofJson?_toJson, TelemetrySettings.decode?_encode, numbers]
  split <;> rfl

end Settings

/-! ## All types of the wire -/

namespace Json

/-- What is written is read back as it is, unless it holds a number that is not finite; then
it is refused. -/
def Restores {α : Type} (encode : α → Json) (decode? : Json → Option α)
    (numbers : α → List Binary64) : Prop :=
  ∀ x, decode? (encode x) = if (numbers x).all Binary64.isFinite then some x else none

/-- What is written is read back with new instances of its structured values, made at the
place that the reader is told. So it equals what was written exactly if no structured value
is in it. If it holds a number that is not finite, it is refused. -/
structure Remakes {α : Type} [BEq α] (encode : α → Json) (decode? : Origin → Json → Option α)
    (values : α → List Value) (remade : Origin → α → α) : Prop where
  read : ∀ place x, decode? place (encode x) =
    if (values x).all Value.isFinite then some (remade place x) else none
  equal : ∀ place x, (values x).all Value.isFinite = true →
    (∀ value ∈ values x, value.Foreign place) →
    ((remade place x == x) = true ↔ ∀ value ∈ values x, value.isStructured = false)

/-- The types of the wire round-trip. A match that is read back binds the same variables, and
documents of settings lose nothing, as every field is written. -/
theorem wire_types_round_trip :
    Remakes Value.encode Value.decode? (fun value => [value]) Value.remade ∧
    Remakes Arg.encode Arg.decode? Arg.values Arg.remade ∧
    Remakes Claim.encode Claim.decode? Claim.values Claim.remade ∧
    Remakes Match.encode Match.decode? Match.values Match.remade ∧
    (∀ place (m : Match), (m.remade place).toList =
      m.toList.mapIdx fun index binding =>
        (binding.1, binding.2.remade (.item place index))) ∧
    Restores Point.toJson Point.ofJson? Point.numbers ∧
    Restores Corners.toJson Corners.ofJson? Corners.numbers ∧
    Restores Placement.toJson Placement.ofJson? Placement.numbers ∧
    Restores Viewport.toJson Viewport.ofJson? Viewport.numbers ∧
    Restores TelemetrySettings.encode TelemetrySettings.decode? (fun _ => []) ∧
    Restores Settings.encode Settings.decode? Settings.numbers := by
  refine ⟨⟨?_, ?_⟩, ⟨Arg.decode?_encode, fun _ _ => Arg.remade_beq_iff⟩,
    ⟨Claim.decode?_encode, fun _ _ => Claim.remade_beq_iff⟩,
    ⟨Match.decode?_encode, fun _ _ => Match.remade_beq_iff⟩, Match.toList_remade,
    Point.ofJson?_toJson, Corners.ofJson?_toJson, Placement.ofJson?_toJson,
    Viewport.ofJson?_toJson, TelemetrySettings.decode?_encode, Settings.decode?_encode⟩
  · intro place value
    simpa using value.decode?_encode place
  · intro place value finite foreign
    rw [List.forall_mem_singleton] at foreign ⊢
    exact Value.remade_beq_iff (by simpa using finite) foreign

/-- A wish that holds a structured value comes back with another instance of it. -/
theorem wire_types_round_trip_of_wish :
    let wished : Claim := .wish ⟨"1"⟩ "@ is drawn on @"
      [.val (.structured (.given 0) (Corners.rectangle 2 1).payload), .val .null, .val (.float 5)]
    Claim.decode? (.given 1) wished.encode = some (wished.remade (.given 1)) ∧
      (wished.remade (.given 1) == wished) = false := by
  intro wished
  obtain ⟨-, -, claims, -⟩ := wire_types_round_trip
  have finite : wished.values.all Value.isFinite = true := by decide +kernel
  have foreign : ∀ value ∈ wished.values, value.Foreign (.given 1) := by
    rintro value listed origin payload rfl within
    obtain ⟨rfl, -⟩ : origin = .given 0 ∧ _ := by
      simpa [wished, Claim.wish, Claim.values, Arg.values, Arg.value?, Value.ofProgramId]
        using listed
    cases within
  constructor
  · rw [claims.read, if_pos finite]
  · refine Bool.eq_false_iff.mpr fun same => ?_
    have plain := (claims.equal _ wished finite foreign).mp same
    have structured : wished.values.any Value.isStructured = true := by decide +kernel
    obtain ⟨value, listed, isStructured⟩ := List.any_eq_true.mp structured
    exact absurd isStructured (by simp [plain value listed])

/-- The sign of a zero is kept. -/
example :
    ((Value.decode? (.given 0) (Value.float ⟨0x8000000000000000⟩).encode).bind
      Value.number?).map Binary64.bits = some 0x8000000000000000 := by
  decide +kernel

/-- A default does not stand in for a number that is not finite. -/
example : Settings.decode? ({ viewport := { width := .nan } } : Settings).encode = none := by
  decide +kernel

end Json

end Blackboard
