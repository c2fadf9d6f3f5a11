import HadrAgent.Dispatch.AgentLoop
import HadrAgent.Dispatch.CloseReasons

/-!
# What the model is offered

`tool` of `util.py` and `_tool_defs` of `dispatch.py`: the definitions of the dispatcher's tools, as they go to the
model. A call is offered by a definition if it has its name, its required arguments, and every argument of the type its
parameter has.

- `served`: how such a call is answered: it reaches the backend with the types that `DispatchTools` declares, or it
  rewrites a record, or it is refused for one of three reasons. Whatever else it raises comes from the backend or from
  the debug log;
- `step_of_not_defined`: what has no definition does nothing.
-/

namespace HadrAgent

variable {β F : Type}

/-! ## Definitions -/

/-- `STR`. -/
def strSchema : Val F := .dict [("type", .str "string")]

/-- `NUM`. -/
def numSchema : Val F := .dict [("type", .str "number")]

/-- `OBJ`. -/
def objSchema : Val F := .dict [("type", .str "object")]

/-- `util.tool`. -/
def tool (name desc : String) (params : List (String × Val F)) (required : Option (List String)) : Val F :=
  .dict [
    ("type", .str "function"),
    ("function", .dict [
      ("name", .str name),
      ("description", .str desc),
      ("parameters", .dict [
        ("type", .str "object"),
        ("properties", .dict params),
        ("required", .list ((required.getD (params.map Prod.fst)).map .str))])])]

/-- `_tool_defs`. -/
def toolDefs : List (Val F) :=
  [ tool "building_to_coords" "Convert a building ID (l<int>) to its exact world point."
      [("building_id", strSchema)] none,
    tool "travel_time"
      ("ETA in ticks and distance between two endpoints. Each of `from`/`to` " ++
        "is either \x7b\"vehicle_id\": \"truck-1\"\x7d or \x7b\"point\": \x7b\"x\":.., \"y\":..\x7d\x7d.")
      [("from", objSchema), ("to", objSchema)] none,
    tool "file_incident_update"
      ("Record a belief change on an incident before/without dispatching " ++
        "(e.g. mark it covered, note a contradiction). Fields: status, notes.")
      [("incident_id", strSchema), ("status", strSchema), ("notes", strSchema)] (some ["incident_id"]),
    tool "dispatch"
      ("Send a truck to a world point to serve an incident. incident_id MUST " ++
        "be a real filed incident and rationale MUST be a one-sentence " ++
        "justification. Retargets a moving/firefighting truck.")
      [("vehicle_id", strSchema), ("incident_id", strSchema), ("x", numSchema), ("y", numSchema),
        ("rationale", strSchema)] none ]

/-! ## Calls as they are offered -/

/-- The type of a JSON value. -/
def jsonType? : Val F → Option String
  | .none => some "null"
  | .bool _ => some "boolean"
  | .int _ | .float _ => some "number"
  | .str _ => some "string"
  | .list _ => some "array"
  | .dict _ => some "object"
  | .tuple _ | .obj _ => none

section Offers

variable [Runtime F]

/-- What a schema of parameters asks of the arguments. -/
structure Conforms (schema : Val F) (args : Dict F) : Prop where
  required : ∀ names, schema.getItem "required" = .ok (.list names) → ∀ k, .str k ∈ names → ∃ v, args.get? k = some v
  typed : ∀ properties, schema.getItem "properties" = .ok (.dict properties) → ∀ k s v, (k, s) ∈ properties →
    args.get? k = some v → ∀ t, s.getItem "type" = .ok (.str t) → jsonType? v = some t

/-- The function of a definition, and its schema. -/
def Defines (d : Val F) (name : String) (schema : Val F) : Prop :=
  ∃ function, d.getItem "function" = .ok function ∧ function.getItem "name" = .ok (.str name) ∧
    function.getItem "parameters" = .ok schema

/-- A call that conforms to a definition. -/
def Offered (name : String) (args : Dict F) : Prop :=
  ∃ d ∈ toolDefs, ∃ schema, Defines d name schema ∧ Conforms schema args

theorem defines_tool {name name' desc : String} {params : List (String × Val F)} {required : Option (List String)}
    {schema : Val F} (h : Defines (tool name desc params required) name' schema) :
    name' = name ∧ schema = .dict [("type", .str "object"), ("properties", .dict params),
      ("required", .list ((required.getD (params.map Prod.fst)).map .str))] := by
  obtain ⟨function, hfunction, hname, hschema⟩ := h
  obtain rfl := Except.ok.inj hfunction
  exact ⟨(Val.str.inj (Except.ok.inj hname)).symm, (Except.ok.inj hschema).symm⟩

/-- Arguments that conform to a schema, read off it. -/
theorem conforms_dict {params : List (String × Val F)} {names : List String} {args : Dict F}
    (hrequired : ∀ k ∈ names, ∃ v, args.get? k = some v)
    (htyped : ∀ p ∈ params, ∀ v, args.get? p.1 = some v → ∀ t, p.2.getItem "type" = .ok (.str t) →
      jsonType? v = some t) :
    Conforms (.dict [("type", .str "object"), ("properties", .dict params), ("required", .list (names.map .str))])
      args where
  required l hl k hk := by
    obtain rfl : names.map .str = l := Val.list.inj (Except.ok.inj hl)
    obtain ⟨k', hk', e⟩ := List.mem_map.mp hk
    exact hrequired k (Val.str.inj e ▸ hk')
  typed l hl k s v hs hv t ht := by
    obtain rfl : params = l := Val.dict.inj (Except.ok.inj hl)
    exact htyped (k, s) hs v hv t ht

/-- A required argument is there, and of its type. -/
theorem Conforms.get_required {params : List (String × Val F)} {names : List String} {args : Dict F}
    (h : Conforms (.dict [("type", .str "object"), ("properties", .dict params),
      ("required", .list (names.map .str))]) args) {k t : String} (hk : k ∈ names)
    (hparam : (k, .dict [("type", .str t)]) ∈ params) : ∃ v, args.get? k = some v ∧ jsonType? v = some t := by
  obtain ⟨v, hv⟩ := h.required _ rfl k (List.mem_map_of_mem hk)
  exact ⟨v, hv, h.typed params rfl k _ v hparam hv t rfl⟩

end Offers

theorem jsonType?_string {v : Val F} (h : jsonType? v = some "string") : ∃ s, v = .str s := by
  cases v with
  | str s => exact ⟨s, rfl⟩
  | _ => simp [jsonType?] at h

theorem jsonType?_object {v : Val F} (h : jsonType? v = some "object") : ∃ items, v = .dict items := by
  cases v with
  | dict items => exact ⟨items, rfl⟩
  | _ => simp [jsonType?] at h

theorem jsonType?_number {v : Val F} (h : jsonType? v = some "number") : (∃ n, v = .int n) ∨ ∃ x, v = .float x := by
  cases v with
  | int n => exact .inl ⟨n, rfl⟩
  | float x => exact .inr ⟨x, rfl⟩
  | _ => simp [jsonType?] at h

/-! ## What is offered -/

section Offered

variable [Runtime F]

/-- The arguments of a call, with the types that are asked for. -/
inductive Fits (args : Dict F) : String → Prop
  | buildingToCoords {buildingId : String} (hid : args.get? "building_id" = some (.str buildingId)) :
      Fits args "building_to_coords"
  | travelTime {fromSpec toSpec : List (String × Val F)} (hfrom : args.get? "from" = some (.dict fromSpec))
      (hto : args.get? "to" = some (.dict toSpec)) : Fits args "travel_time"
  | fileIncidentUpdate {id : String} (hid : args.get? "incident_id" = some (.str id))
      (hstatus : ∀ v, args.get? "status" = some v → ∃ s, v = .str s)
      (hnotes : ∀ v, args.get? "notes" = some v → ∃ s, v = .str s) : Fits args "file_incident_update"
  | dispatch {vehicleId id rationale : String} {x y : Val F} (hvehicle : args.get? "vehicle_id" = some (.str vehicleId))
      (hid : args.get? "incident_id" = some (.str id)) (hx : args.get? "x" = some x)
      (hnx : jsonType? x = some "number") (hy : args.get? "y" = some y) (hny : jsonType? y = some "number")
      (hrationale : args.get? "rationale" = some (.str rationale)) : Fits args "dispatch"

theorem Conforms.get_str {params : List (String × Val F)} {names : List String} {args : Dict F}
    (h : Conforms (.dict [("type", .str "object"), ("properties", .dict params),
      ("required", .list (names.map .str))]) args) {k : String} (hk : k ∈ names)
    (hparam : (k, strSchema) ∈ params) : ∃ s, args.get? k = some (.str s) := by
  obtain ⟨v, hv, ht⟩ := h.get_required hk hparam
  obtain ⟨s, rfl⟩ := jsonType?_string ht
  exact ⟨s, hv⟩

/-- **What the definitions offer**, read off them. -/
theorem fits_of_offered {name : String} {args : Dict F} (h : Offered name args) : Fits args name := by
  obtain ⟨d, hd, schema, hdefines, hargs⟩ := h
  simp only [toolDefs, List.mem_cons, List.not_mem_nil, or_false] at hd
  rcases hd with rfl | rfl | rfl | rfl
  · obtain ⟨rfl, rfl⟩ := defines_tool hdefines
    obtain ⟨b, hb⟩ := hargs.get_str (k := "building_id") (by simp) (by simp)
    exact .buildingToCoords hb
  · obtain ⟨rfl, rfl⟩ := defines_tool hdefines
    obtain ⟨v, hv, hfrom⟩ := hargs.get_required (k := "from") (t := "object") (by simp) (by simp [objSchema])
    obtain ⟨v', hv', hto⟩ := hargs.get_required (k := "to") (t := "object") (by simp) (by simp [objSchema])
    obtain ⟨fromSpec, rfl⟩ := jsonType?_object hfrom
    obtain ⟨toSpec, rfl⟩ := jsonType?_object hto
    exact .travelTime hv hv'
  · obtain ⟨rfl, rfl⟩ := defines_tool hdefines
    obtain ⟨id, hid⟩ := hargs.get_str (k := "incident_id") (by simp) (by simp)
    refine .fileIncidentUpdate hid (fun v hv => ?_) fun v hv => ?_
    · exact jsonType?_string (hargs.typed _ rfl "status" strSchema v (by simp) hv _ rfl)
    · exact jsonType?_string (hargs.typed _ rfl "notes" strSchema v (by simp) hv _ rfl)
  · obtain ⟨rfl, rfl⟩ := defines_tool hdefines
    obtain ⟨vehicleId, hvehicle⟩ := hargs.get_str (k := "vehicle_id") (by simp) (by simp)
    obtain ⟨id, hid⟩ := hargs.get_str (k := "incident_id") (by simp) (by simp)
    obtain ⟨x, hx, hnx⟩ := hargs.get_required (k := "x") (t := "number") (by simp) (by simp [numSchema])
    obtain ⟨y, hy, hny⟩ := hargs.get_required (k := "y") (t := "number") (by simp) (by simp [numSchema])
    obtain ⟨rationale, hrationale⟩ := hargs.get_str (k := "rationale") (by simp) (by simp)
    exact .dispatch hvehicle hid hx hnx hy hny hrationale

/-! ## How it is answered -/

/-- How a call is answered that fits its definition. -/
inductive Served (tools : DispatchTools β F) (log : DebugLog β F) (c : ToolCall F) (w : World β F) :
    Except Exc (Dict F) × World β F → Prop
  /-- The backend locates a building. -/
  | located {buildingId : String} (hid : c.args.get? "building_id" = some (.str buildingId)) :
      Served tools log c w (((tools.buildingToCoords (.str buildingId)).exec w.backend).1,
        { w with backend := ((tools.buildingToCoords (.str buildingId)).exec w.backend).2 })
  /-- The backend gives a travel time. -/
  | timed {fromSpec toSpec : List (String × Val F)} (hfrom : c.args.get? "from" = some (.dict fromSpec))
      (hto : c.args.get? "to" = some (.dict toSpec)) :
      Served tools log c w (((tools.travelTime (.dict fromSpec) (.dict toSpec)).exec w.backend).1,
        { w with backend := ((tools.travelTime (.dict fromSpec) (.dict toSpec)).exec w.backend).2 })
  /-- The backend sends a truck to an incident on file. -/
  | sent {vehicleId id rationale : String} {i : Incident F} {x y : F} {r : Except Exc (Dict F)} {b : β}
      (hvehicle : c.args.get? "vehicle_id" = some (.str vehicleId))
      (hid : c.args.get? "incident_id" = some (.str id)) (hi : w.incidents.byId.get? id = some i)
      (hrationale : c.args.get? "rationale" = some (.str rationale))
      (hr : (tools.dispatch (.str vehicleId) (.str id) x y (.str rationale)).exec w.backend = (r, b)) :
      Served tools log c w (r, { w with
        backend := b
        result := { w.result with
          dispatches := w.result.dispatches ++ acceptedEntries (.str vehicleId) (.str id) (.str rationale) r } })
  /-- A record on file is rewritten, and that is logged. -/
  | refiled {id : String} {i i' : Incident F} {s : IncidentStore F} (hid : c.args.get? "incident_id" = some (.str id))
      (hi : w.incidents.byId.get? id = some i) (hi' : i.refiled c.args c.tick = .ok i')
      (hs : s = w.incidents.put (.str id) i') :
      Served tools log c w (((log s).exec w.backend).1.map fun _ => okReply,
        { w with incidents := s, backend := ((log s).exec w.backend).2 })
  /-- The incident is not on file. -/
  | unfiled {id text : String} (hid : c.args.get? "incident_id" = some (.str id))
      (hi : w.incidents.byId.get? id = none)
      (ht : text = "no such incident " ++ id ∨ text = unfiled (.str id : Val F)) :
      Served tools log c w (.ok (errorReply text), w)
  /-- The status is none. -/
  | illegal {status : String} (hstatus : c.args.get? "status" = some (.str status))
      (h : status ≠ statusOpen ∧ status ≠ statusClosed) :
      Served tools log c w
        (.error ⟨.valueError, "status must be one of ['closed', 'open'], got " ++ (.str status : Val F).repr⟩, w)
  /-- A coordinate is too large for a float. -/
  | tooLarge {n : Int} (h : (Runtime.ofInt n : Option F) = none)
      (hn : c.args.get? "x" = some (.int n) ∨ c.args.get? "y" = some (.int n)) :
      Served tools log c w (.error ⟨.overflowError, "int too large to convert to float"⟩, w)

omit [Runtime F] in
theorem Dict.getD_of_get? {args : Dict F} {k : String} {v default : Val F} (h : args.get? k = some v) :
    args.getD k default = v := by
  unfold Dict.getD
  rw [h]
  rfl

theorem Dict.getItem_of_get? {args : Dict F} {k : String} {v : Val F} (h : args.get? k = some v) :
    args.getItem k = .ok v := by
  unfold Dict.getItem
  rw [h]
  rfl

/-- `float` of a number. -/
theorem toFloat_of_number {v : Val F} (h : jsonType? v = some "number") :
    (∃ x, v.toFloat = .ok x) ∨ ∃ n, v = .int n ∧ (Runtime.ofInt n : Option F) = none ∧
      v.toFloat = .error ⟨.overflowError, "int too large to convert to float"⟩ := by
  rcases jsonType?_number h with ⟨n, rfl⟩ | ⟨x, rfl⟩
  · cases hn : (Runtime.ofInt n : Option F) with
    | some x => exact .inl ⟨x, by rw [Val.toFloat, hn]; rfl⟩
    | none => exact .inr ⟨n, rfl, hn, by rw [Val.toFloat, hn]; rfl⟩
  · exact .inl ⟨x, rfl⟩

/-- `_check_status` refuses a string outside of the vocabulary. -/
theorem checkStatus_str {s : String} {e : Exc} (h : checkStatus (.str s : Val F) = .error e) :
    (s ≠ statusOpen ∧ s ≠ statusClosed) ∧
      e = ⟨.valueError, "status must be one of ['closed', 'open'], got " ++ (.str s : Val F).repr⟩ := by
  have hlegal : ¬ (.str s : Val F).LegalStatus := fun hs => by
    rw [checkStatus_eq_ok.mpr hs] at h
    cases h
  have hne : s ≠ statusOpen ∧ s ≠ statusClosed := by
    refine ⟨?_, ?_⟩
    · rintro rfl
      exact hlegal (.inl rfl)
    · rintro rfl
      exact hlegal (.inr rfl)
  refine ⟨hne, ?_⟩
  have hh : (.str s : Val F).requireHash = .ok () := rfl
  simp only [checkStatus, hh, bind, Except.bind] at h
  split at h
  · next heq => exact absurd (Val.str.inj heq) hne.1
  · next heq => exact absurd (Val.str.inj heq) hne.2
  · exact (Except.error.inj h).symm

/-- Only a status outside of the vocabulary is refused. -/
theorem refiled_of_error {args : Dict F} {tick : Val F} {i : Incident F} {e : Exc}
    (hstatus : ∀ v, args.get? "status" = some v → ∃ s, v = .str s) (h : i.refiled args tick = .error e) :
    ∃ s : String, args.get? "status" = some (.str s) ∧ (s ≠ statusOpen ∧ s ≠ statusClosed) ∧
      e = ⟨.valueError, "status must be one of ['closed', 'open'], got " ++ (.str s : Val F).repr⟩ := by
  have hkeys : ∀ name ∈ (updateFields args).keys, name ∈ fieldNames := fun name hn => by
    rcases updateFields_keys hn with rfl | rfl <;> decide
  unfold Incident.refiled at h
  split at h
  · cases h
  · cases hs : (updateFields args).get? "status" with
    | none =>
      rw [Incident.updated_of_known hkeys (fun status h' => by rw [hs] at h'; cases h')] at h
      cases h
    | some v =>
      have hgiven : args.get? "status" = some v := by
        rw [updateFields, OrdDict.get?_filter] at hs
        exact (Option.filter_eq_some_iff.mp hs).1
      obtain ⟨s, rfl⟩ := hstatus v hgiven
      cases hc : checkStatus (.str s : Val F) with
      | ok u =>
        have hlegal := checkStatus_eq_ok.mp hc
        rw [Incident.updated_of_known hkeys (fun status h' => by rw [hs] at h'; exact Option.some.inj h' ▸ hlegal)] at h
        cases h
      | error e' =>
        obtain ⟨hne, rfl⟩ := checkStatus_str hc
        have hunknown : ((updateFields args).keys.filter (· ∉ fieldNames)).insertionSort (· ≤ ·) = [] := by
          rw [List.filter_eq_nil_iff.mpr fun name h => by simpa using hkeys name h]
          rfl
        unfold Incident.updated at h
        rw [hunknown] at h
        simp only [hs, hc] at h
        exact ⟨s, hgiven, hne, (Except.error.inj h).symm⟩

theorem served_fileIncidentUpdate (tools : DispatchTools β F) (log : DebugLog β F) (w : World β F) {c : ToolCall F}
    {id : String} (hid : c.args.get? "incident_id" = some (.str id))
    (hstatus : ∀ v, c.args.get? "status" = some v → ∃ s, v = .str s) :
    Served tools log c w ((fileIncidentUpdate log c.args c.tick).exec w) := by
  rw [exec_fileIncidentUpdate log (Dict.getD_of_get? hid)]
  have hh : (.str id : Val F).requireHash = .ok () := rfl
  have hl : w.incidents.lookup (.str id) = w.incidents.byId.get? id := rfl
  rw [hh, hl]
  cases hi : w.incidents.byId.get? id with
  | none => exact .unfiled hid hi (.inl rfl)
  | some i =>
    simp only []
    cases hi' : i.refiled c.args c.tick with
    | ok i' => exact .refiled hid hi hi' rfl
    | error e =>
      obtain ⟨s, hs, hne, rfl⟩ := refiled_of_error hstatus hi'
      exact .illegal hs hne

theorem served_dispatch (tools : DispatchTools β F) (log : DebugLog β F) (w : World β F) {c : ToolCall F}
    {vehicleId id rationale : String} {vx vy : Val F} (hvehicle : c.args.get? "vehicle_id" = some (.str vehicleId))
    (hid : c.args.get? "incident_id" = some (.str id)) (hx : c.args.get? "x" = some vx)
    (hnx : jsonType? vx = some "number") (hy : c.args.get? "y" = some vy) (hny : jsonType? vy = some "number")
    (hrationale : c.args.get? "rationale" = some (.str rationale)) :
    Served tools log c w ((dispatchTruck tools c.args).exec w) := by
  rw [exec_dispatchTruck tools (Dict.getD_of_get? hid) (Dict.getD_of_get? hrationale)]
  have hh : (.str id : Val F).requireHash = .ok () := rfl
  have hl : w.incidents.lookup (.str id) = w.incidents.byId.get? id := rfl
  rw [hh, hl]
  cases hi : w.incidents.byId.get? id with
  | none => exact .unfiled hid hi (.inr rfl)
  | some i =>
    simp only [dispatchArgs, Dict.getItem_of_get? hvehicle, Dict.getItem_of_get? hx, Dict.getItem_of_get? hy, bind,
      Except.bind]
    rcases toFloat_of_number hnx with ⟨x, hfx⟩ | ⟨n, rfl, hn, hfx⟩
    · rcases toFloat_of_number hny with ⟨y, hfy⟩ | ⟨n, rfl, hn, hfy⟩
      · simp only [hfx, hfy]
        exact .sent hvehicle hid hi hrationale rfl
      · simp only [hfx, hfy]
        exact .tooLarge hn (.inr hy)
    · simp only [hfx]
      exact .tooLarge hn (.inl hx)

theorem served_of_offered (tools : DispatchTools β F) (log : DebugLog β F) (w : World β F) {c : ToolCall F}
    (h : Offered c.name c.args) : Served tools log c w ((callTool tools log c.name c.args c.tick).exec w) := by
  obtain ⟨name, args, tick⟩ := c
  have hfits := fits_of_offered h
  dsimp only at hfits
  cases hfits with
  | buildingToCoords hid =>
    simp only [callTool, if_pos, Py.exec_bind, Py.exec_lift, Dict.getItem_of_get? hid, exec_onBackend]
    exact .located hid
  | travelTime hfrom hto =>
    have hne : "travel_time" ≠ "building_to_coords" := by decide
    simp only [callTool, if_neg hne, if_pos, exec_onBackend, Dict.getD_of_get? hfrom, Dict.getD_of_get? hto]
    exact .timed hfrom hto
  | fileIncidentUpdate hid hstatus hnotes => exact served_fileIncidentUpdate tools log w hid hstatus
  | dispatch hvehicle hid hx hnx hy hny hrationale =>
    exact served_dispatch tools log w hvehicle hid hx hnx hy hny hrationale

/-- What a call raises that comes from outside of the dispatcher: from the backend, asked with declared types, or from
the debug log. -/
inductive RaisedOutside (tools : DispatchTools β F) (log : DebugLog β F) (b : β) (e : Exc) : Prop
  | located {buildingId : String} (h : ((tools.buildingToCoords (.str buildingId)).exec b).1 = .error e)
  | timed {fromSpec toSpec : List (String × Val F)}
      (h : ((tools.travelTime (.dict fromSpec) (.dict toSpec)).exec b).1 = .error e)
  | sent {vehicleId id rationale : String} {x y : F}
      (h : ((tools.dispatch (.str vehicleId) (.str id) x y (.str rationale)).exec b).1 = .error e)
  | logged {s : IncidentStore F} (h : ((log s).exec b).1 = .error e)

/-- What a served call raises: an illegal status, a coordinate that is too large, or what comes from outside. -/
theorem Served.raised {tools : DispatchTools β F} {log : DebugLog β F} {c : ToolCall F} {w : World β F}
    {run : Except Exc (Dict F) × World β F} (h : Served tools log c w run) {e : Exc} (he : run.1 = .error e) :
    (∃ s : String, e = ⟨.valueError, "status must be one of ['closed', 'open'], got " ++ (.str s : Val F).repr⟩) ∨
      e = ⟨.overflowError, "int too large to convert to float"⟩ ∨ RaisedOutside tools log w.backend e := by
  cases h with
  | located hid => exact .inr (.inr (.located he))
  | timed hfrom hto => exact .inr (.inr (.timed he))
  | sent hvehicle hid hi hrationale hr => exact .inr (.inr (.sent ((congrArg Prod.fst hr).trans he)))
  | @refiled id i i' s hid hi hi' hs =>
    cases hlog : ((log s).exec w.backend).1 with
    | ok u =>
      rw [hlog] at he
      cases he
    | error e' =>
      rw [hlog] at he
      cases he
      exact .inr (.inr (.logged hlog))
  | unfiled hid hi ht => cases he
  | @illegal status hstatus h =>
    cases he
    exact .inl ⟨status, rfl⟩
  | tooLarge h hn =>
    cases he
    exact .inr (.inl rfl)

/-- **An offered call is served**, in every session: it reaches the backend with arguments of the types that are
declared there, or rewrites a record, or is refused without a change, because the incident is not on file, the status is
none or a coordinate is too large. Of itself the dispatcher raises in the last two cases only: a missing argument or a
wrong type in an answer is what the backend, or the debug log, has raised. -/
theorem served (tools : DispatchTools β F) (log : DebugLog β F) (w : World β F) {c : ToolCall F}
    (h : Offered c.name c.args) :
    let run := (callTool tools log c.name c.args c.tick).exec w
    Served tools log c w run ∧ ∀ e, run.1 = .error e →
      (∃ s : String, e = ⟨.valueError, "status must be one of ['closed', 'open'], got " ++ (.str s : Val F).repr⟩) ∨
        e = ⟨.overflowError, "int too large to convert to float"⟩ ∨ RaisedOutside tools log w.backend e := by
  have hserved := served_of_offered tools log w h
  exact ⟨hserved, fun e he => hserved.raised he⟩

/-- A truck for the first incident. -/
def sendTruck : Dict Whole :=
  .ofList [("vehicle_id", .str "truck-1"), ("incident_id", .str "inc-1"), ("x", .int 3), ("y", .int 4),
    ("rationale", .str "the nearest one")]

theorem offered_sendTruck : Offered "dispatch" sendTruck := by
  refine ⟨_, .tail _ (.tail _ (.tail _ (.head _))), _, ⟨_, rfl, rfl, rfl⟩, conforms_dict ?_ ?_⟩
  · intro k hk
    exact OrdDict.exists_get?_of_mem hk
  · intro p hp v hv t ht
    simp only [List.mem_cons, List.not_mem_nil, or_false] at hp
    rcases hp with rfl | rfl | rfl | rfl | rfl
    all_goals
      cases hv
      cases ht
      rfl

/-- Where no incident is on file, it is refused. -/
theorem served_sendTruck :
    Served deadTools noLog ⟨"dispatch", sendTruck, .int 1⟩ ⟨.empty, .empty, ()⟩
      (.ok (errorReply (unfiled (.str "inc-1" : Val Whole))), ⟨.empty, .empty, ()⟩) :=
  (served (c := ⟨"dispatch", sendTruck, .int 1⟩) deadTools noLog ⟨.empty, .empty, ()⟩ offered_sendTruck).1

/-- **What is not offered does nothing**: a name without a definition is answered as unknown. -/
theorem step_of_not_defined (tools : DispatchTools β F) (log : DebugLog β F) (w : World β F) {c : ToolCall F}
    (h : ∀ d ∈ toolDefs, ∀ schema : Val F, ¬ Defines d c.name schema) :
    w.step tools log c = (errorReply ("unknown tool " ++ c.name), w) := by
  have hne : ∀ {name desc : String} {params : List (String × Val F)} {required : Option (List String)},
      tool name desc params required ∈ toolDefs → c.name ≠ name := by
    rintro name desc params required hd rfl
    exact h _ hd _ ⟨_, rfl, rfl, rfl⟩
  have hcall : callTool tools log c.name c.args c.tick = pure (errorReply ("unknown tool " ++ c.name)) := by
    unfold callTool
    rw [if_neg (hne (List.mem_cons_self ..)), if_neg (hne (List.mem_cons_of_mem _ (List.mem_cons_self ..))),
      if_neg (hne (List.mem_cons_of_mem _ (List.mem_cons_of_mem _ (List.mem_cons_self ..)))),
      if_neg (hne (List.mem_cons_of_mem _ (List.mem_cons_of_mem _ (List.mem_cons_of_mem _ (List.mem_cons_self ..)))))]
  rw [step_eq, hcall]
  rfl

end Offered

end HadrAgent
