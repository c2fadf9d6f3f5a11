import HadrAgent.Lib.FirstOcc
import HadrAgent.Runner.TickEffects

/-!
# Routing of contacts

The engine may deliver a contact any number of times, within an observation or across observations. A tick routes what
it has not seen (`exec_routeContacts`), so over a run of ticks the contacts routed are the first deliveries, each on
its tick (`contacts_routed_once`).
-/

namespace HadrAgent

variable {ε F : Type} [Runtime F]

/-! ## Deliveries -/

/-- Whether a contact is a typed observation of a truck. -/
def isTruckObservation (fields : Dict F) : Bool :=
  (fields.getD "payload_type" .none).eq (.str "truck_observation")

/-- A contact as the engine delivers it: with an id, and with a payload when it is an observation of a truck. -/
structure Contact (F : Type) [Runtime F] where
  fields : Dict F
  id : Val F
  hasId : fields.get? "contact_id" = some id
  hashable : id.requireHash = .ok ()
  hasPayload : isTruckObservation fields = true → "payload" ∈ fields.keys

namespace Contact

/-- The id up to equality. -/
def key (c : Contact F) : Key F := c.id.tokens

/-- The contact as the runner reads it. -/
def toVal (c : Contact F) : Val F := c.fields.toVal

def isTruck (c : Contact F) : Bool := isTruckObservation c.fields

def payload (c : Contact F) : Val F := c.fields.getD "payload" .none

theorem getItem_id (c : Contact F) : c.toVal.getItem "contact_id" = .ok c.id := by
  show ((c.fields.get? "contact_id").elim _ _ : Except Exc (Val F)) = _
  rw [c.hasId]
  rfl

theorem getItem_payload (c : Contact F) (h : c.isTruck = true) : c.toVal.getItem "payload" = .ok c.payload := by
  obtain ⟨v, hv⟩ := OrdDict.exists_get?_of_mem (c.hasPayload h)
  show ((c.fields.get? "payload").elim _ _ : Except Exc (Val F)) = .ok ((c.fields.get? "payload").getD .none)
  rw [hv]
  rfl

end Contact

/-- An observation with its contacts. -/
structure Observation (F : Type) [Runtime F] where
  fields : Dict F
  tick : Val F
  contacts : List (Contact F)
  hasTick : fields.get? "tick" = some tick
  hasContacts : fields.getD "contacts" (.list []) = .list (contacts.map Contact.toVal)

namespace Observation

/-- The observation as the runner reads it. -/
def toVal (o : Observation F) : Val F := o.fields.toVal

theorem getItem_tick (o : Observation F) : o.toVal.getItem "tick" = .ok o.tick := by
  show ((o.fields.get? "tick").elim _ _ : Except Exc (Val F)) = _
  rw [o.hasTick]
  rfl

theorem getD_contacts (o : Observation F) :
    o.toVal.getD "contacts" (.list []) = .ok (.list (o.contacts.map Contact.toVal)) :=
  congrArg Except.ok o.hasContacts

end Observation

/-- Everything delivered, in its order. -/
def deliveries (obss : List (Observation F)) : List (Contact F) := obss.flatMap Observation.contacts

/-- The contacts of an observation that were not delivered before, in their order. -/
def arrivals (before : List (Contact F)) (o : Observation F) : List (Contact F) :=
  (firstOcc Contact.key o.contacts).filter fun c => c.key ∉ before.map Contact.key

namespace Routed

/-- Where contacts go: payloads of trucks to the observations, others to intake. -/
def of (contacts : List (Contact F)) : Routed F :=
  ⟨(contacts.filter fun c => !c.isTruck).map Contact.toVal, (contacts.filter Contact.isTruck).map Contact.payload⟩

/-- One routing after another. -/
protected def append (r s : Routed F) : Routed F := ⟨r.newHuman ++ s.newHuman, r.observations ++ s.observations⟩

theorem append_of_nil (r : Routed F) : r.append (of []) = r := by
  simp [Routed.append, of]

theorem append_of_cons (r : Routed F) (c : Contact F) (contacts : List (Contact F)) :
    r.append (of (c :: contacts)) = (r.append (of [c])).append (of contacts) := by
  cases h : c.isTruck <;> simp [Routed.append, of, h]

end Routed

/-! ## One tick -/

namespace Episode

/-- The episode has seen what was delivered. -/
def HasSeen (ep : Episode ε F) (delivered : List (Contact F)) : Prop :=
  ep.seen = (delivered.map Contact.key).toFinset

theorem HasSeen.mem_iff {ep : Episode ε F} {delivered : List (Contact F)} (h : ep.HasSeen delivered) {k : Key F} :
    k ∈ ep.seen ↔ k ∈ delivered.map Contact.key := by
  rw [h, List.mem_toFinset]

/-- **One contact** is routed unless it was seen, and it is seen afterwards. -/
theorem exec_routeContact (c : Contact F) (routed : Routed F) (ep : Episode ε F) :
    (routeContact routed c.toVal).exec ep =
      (.ok (if c.key ∈ ep.seen then routed else routed.append (.of [c])),
        { ep with seen := insert c.key ep.seen }) := by
  simp only [routeContact, Py.exec_bind, Py.exec_lift, c.getItem_id, c.hashable, Py.exec_get]
  by_cases h : c.id.tokens ∈ ep.seen
  · have hkey : c.key ∈ ep.seen := h
    rw [if_pos h, if_pos hkey, Finset.insert_eq_of_mem hkey]
    rfl
  · have hkey : c.key ∉ ep.seen := h
    have htype : c.toVal.getD "payload_type" .none = .ok (c.fields.getD "payload_type" .none) := rfl
    have htruck : (c.fields.getD "payload_type" .none).eq (.str "truck_observation") = c.isTruck := rfl
    rw [if_neg h, if_neg hkey]
    simp only [Py.exec_bind, Py.exec_modify, Py.exec_lift, htype, htruck]
    cases ht : c.isTruck with
    | true =>
      simp only [if_true, Py.exec_bind, Py.exec_lift, c.getItem_payload ht, Py.exec_pure]
      simp [Routed.append, Routed.of, ht, Contact.key]
    | false => simp [Routed.append, Routed.of, ht, Contact.key]

/-- **The contacts of a tick**: those that arrive are routed, and all of them are seen afterwards. -/
theorem exec_routeContacts : ∀ (contacts delivered : List (Contact F)) (routed : Routed F) {ep : Episode ε F},
    ep.HasSeen delivered → ∃ ep', ep'.HasSeen (delivered ++ contacts) ∧
      (routeContacts routed (contacts.map Contact.toVal)).exec ep =
        (.ok (routed.append (.of ((firstOcc Contact.key contacts).filter fun c => c.key ∉ delivered.map Contact.key))),
          ep')
  | [], delivered, routed, ep, h => by
    refine ⟨ep, (List.append_nil delivered).symm ▸ h, ?_⟩
    exact Prod.ext (congrArg Except.ok (Routed.append_of_nil routed).symm) rfl
  | c :: contacts, delivered, routed, ep, h => by
    have hseen : HasSeen { ep with seen := insert c.key ep.seen } (delivered ++ [c]) := by
      refine Finset.ext fun k => ?_
      simp only [Finset.mem_insert, h.mem_iff, List.mem_toFinset, List.map_append, List.mem_append, List.map_cons,
        List.map_nil, List.mem_singleton]
      exact or_comm
    obtain ⟨ep', hep', hrun⟩ := exec_routeContacts contacts (delivered ++ [c])
      (if c.key ∈ ep.seen then routed else routed.append (.of [c])) hseen
    refine ⟨ep', by rwa [List.append_assoc] at hep', ?_⟩
    rw [List.map_cons, routeContacts, Py.exec_bind, exec_routeContact]
    refine hrun.trans ?_
    -- what arrives behind `c` is neither delivered before nor `c` again
    have hrest : (firstOcc Contact.key contacts).filter (fun d => d.key ∉ (delivered ++ [c]).map Contact.key) =
        ((firstOcc Contact.key contacts).filter fun d => d.key ≠ c.key).filter
          fun d => d.key ∉ delivered.map Contact.key := by
      rw [List.filter_filter]
      refine List.filter_congr fun d _ => ?_
      simp [not_or, Bool.decide_and]
    rw [hrest, firstOcc, List.filter_cons]
    by_cases hc : c.key ∈ delivered.map Contact.key
    · rw [if_pos (h.mem_iff.mpr hc), if_neg (by simpa using hc)]
    · rw [if_neg (fun hm => hc (h.mem_iff.mp hm)), if_pos (by simpa using hc)]
      exact Prod.ext (congrArg Except.ok (Routed.append_of_cons routed c _).symm) rfl

/-- The two lists of a tick. -/
theorem exec_passthrough {delivered : List (Contact F)} (o : Observation F) {ep : Episode ε F}
    (h : ep.HasSeen delivered) : ∃ ep', ep'.HasSeen (delivered ++ o.contacts) ∧
      (passthrough o.toVal).exec ep = (.ok (o.tick, .of (arrivals delivered o)), ep') := by
  have htick : HasSeen { ep with tick := o.tick } delivered := h
  obtain ⟨ep', hep', hrun⟩ := exec_routeContacts o.contacts delivered ⟨[], []⟩ htick
  refine ⟨ep', hep', ?_⟩
  have hiter : (Val.list (o.contacts.map Contact.toVal)).iter = .ok (o.contacts.map Contact.toVal) := rfl
  simp only [passthrough, Py.exec_bind, Py.exec_lift, Py.exec_modify, o.getItem_tick, o.getD_contacts, hiter, hrun]
  rfl

/-- What comes after the contacts of a tick leaves the contacts seen alone. -/
theorem seen_runHoles (session : Session ε F) (holes : Holes ε F) (obs tick : Val F) (routed : Routed F)
    (ep : Episode ε F) : ((runHoles session holes obs tick routed).exec ep).2.seen = ep.seen := by
  let C : Val F → ε → ε → Prop := fun _ _ _ => True
  have hpre : ∀ t, IsPreorder ε (C t) := fun t => { refl := fun _ => trivial, trans := fun _ _ _ _ _ => trivial }
  have hsession : session.Respects C := ⟨fun _ _ _ _ _ => trivial, fun _ _ _ _ => trivial⟩
  exact (along_runHoles hsession holes obs tick routed ep).seen

/-! ## Runs of ticks -/

/-- A tick on an observation: its two lists, and the episode after it, also where its dispatch raised. -/
def tickStep (session : Session ε F) (holes : Holes ε F) (ep : Episode ε F) (o : Observation F) :
    Except Exc (Routed F) × Episode ε F :=
  (((passthrough o.toVal).exec ep).1.map Prod.snd, ((processTick session holes o.toVal).exec ep).2)

/-- **One tick** routes the contacts that arrive, and has seen all of them. -/
theorem tickStep_spec (session : Session ε F) (holes : Holes ε F) {ep : Episode ε F} {delivered : List (Contact F)}
    (h : ep.HasSeen delivered) (o : Observation F) :
    (tickStep session holes ep o).1 = .ok (.of (arrivals delivered o)) ∧
      (tickStep session holes ep o).2.HasSeen (delivered ++ o.contacts) := by
  obtain ⟨ep', hep', hrun⟩ := exec_passthrough o h
  have hafter : (tickStep session holes ep o).2 =
      ((runHoles session holes o.toVal o.tick (.of (arrivals delivered o))).exec ep').2 := by
    rw [tickStep, processTick, Py.exec_bind, hrun]
  refine ⟨?_, ?_⟩
  · rw [tickStep, hrun]
    rfl
  · rw [hafter]
    exact (seen_runHoles session holes _ _ _ ep').trans hep'

variable (session : Session ε F) (holes : Holes ε F)

theorem hasSeen_final : ∀ (obss : List (Observation F)) {delivered : List (Contact F)} {ep : Episode ε F},
    ep.HasSeen delivered → (Runs.final (tickStep session holes) ep obss).HasSeen (delivered ++ deliveries obss)
  | [], delivered, _, h => (List.append_nil delivered).symm ▸ h
  | o :: obss, delivered, _, h => by
    have ih := hasSeen_final obss (tickStep_spec session holes h o).2
    rwa [List.append_assoc] at ih

/-- The lists of a run, tick by tick, make up the first deliveries. -/
theorem answers_tickStep : ∀ (obss : List (Observation F)) {delivered : List (Contact F)} {ep : Episode ε F},
    ep.HasSeen delivered → ∃ routed : List (List (Contact F)),
      Runs.answers (tickStep session holes) ep obss = routed.map (fun contacts => .ok (.of contacts)) ∧
      routed.flatten = (firstOcc Contact.key (deliveries obss)).filter fun c => c.key ∉ delivered.map Contact.key
  | [], _, _, _ => ⟨[], rfl, rfl⟩
  | o :: obss, delivered, ep, h => by
    obtain ⟨hroute, hseen⟩ := tickStep_spec session holes h o
    obtain ⟨routed, hanswers, hflat⟩ := answers_tickStep obss hseen
    refine ⟨arrivals delivered o :: routed, ?_, ?_⟩
    · rw [Runs.answers_cons, hroute, hanswers]
      rfl
    · have hdel : deliveries (o :: obss) = o.contacts ++ deliveries obss := rfl
      rw [List.flatten_cons, hflat, hdel, firstOcc_append, List.filter_append, List.filter_filter]
      congr 1
      refine List.filter_congr fun d _ => ?_
      simp [not_or, Bool.decide_and]

theorem hasSeen_fresh (client : ε) (useLlm : Bool) (intakeLlm dispatchLlm : Option LlmClient) :
    (fresh client useLlm intakeLlm dispatchLlm : Episode ε F).HasSeen [] := rfl

/-- The lists of a routing, concatenated over ticks. -/
theorem flatMap_of (routed : List (List (Contact F))) :
    (routed.map Routed.of).flatMap Routed.newHuman = (Routed.of routed.flatten).newHuman ∧
      (routed.map Routed.of).flatMap Routed.observations = (Routed.of routed.flatten).observations := by
  induction routed with
  | nil => exact ⟨rfl, rfl⟩
  | cons contacts routed ih =>
    rw [List.map_cons, List.flatMap_cons, List.flatMap_cons, ih.1, ih.2]
    simp [Routed.of]

/-- **Contacts are routed exactly once**, over every run of ticks on a new episode: a tick routes the contacts of its
observation that were not delivered before it, and of these each once; over the run the lists hold the first deliveries,
trucks to the observations and others to intake, in the order of delivery; and the episode has seen what was
delivered. -/
theorem contacts_routed_once (client : ε) (useLlm : Bool) (intakeLlm dispatchLlm : Option LlmClient)
    (obss : List (Observation F)) :
    let ep := fresh client useLlm intakeLlm dispatchLlm
    let first := firstOcc Contact.key (deliveries obss)
    (∀ pre o post, obss = pre ++ o :: post →
      (tickStep session holes (Runs.final (tickStep session holes) ep pre) o).1 =
        .ok (.of (arrivals (deliveries pre) o))) ∧
    (∃ routed : List (Routed F), Runs.answers (tickStep session holes) ep obss = routed.map .ok ∧
      routed.flatMap Routed.newHuman = (first.filter fun c => !c.isTruck).map Contact.toVal ∧
      routed.flatMap Routed.observations = (first.filter Contact.isTruck).map Contact.payload) ∧
    (first.Sublist (deliveries obss) ∧ (first.map Contact.key).Nodup ∧
      ∀ c, c ∈ first ↔ ∃ l₁ l₂, deliveries obss = l₁ ++ c :: l₂ ∧ c.key ∉ l₁.map Contact.key) ∧
    (Runs.final (tickStep session holes) ep obss).seen = ((deliveries obss).map Contact.key).toFinset := by
  intro ep first
  have hep : ep.HasSeen [] := hasSeen_fresh client useLlm intakeLlm dispatchLlm
  refine ⟨?_, ?_, ⟨firstOcc_sublist _, nodup_map_firstOcc _, fun c => mem_firstOcc_iff⟩,
    hasSeen_final session holes obss hep⟩
  · intro pre o post _
    exact (tickStep_spec session holes (hasSeen_final session holes pre hep) o).1
  · obtain ⟨routed, hanswers, hflat⟩ := answers_tickStep session holes obss hep
    have hfirst : routed.flatten = first := by
      rw [hflat]
      simp [first]
    obtain ⟨hhuman, hobs⟩ := flatMap_of routed
    refine ⟨routed.map Routed.of, ?_, ?_, ?_⟩
    · rw [hanswers, List.map_map]
      rfl
    · rw [hhuman, hfirst]
      rfl
    · rw [hobs, hfirst]
      rfl

/-- A contact that comes again as an observation of a truck is not routed again. -/
example :
    let human : Contact Whole := ⟨.ofList [("contact_id", .str "c1")], .str "c1", rfl, rfl, nofun⟩
    let truck : Contact Whole :=
      ⟨.ofList [("contact_id", .str "c1"), ("payload_type", .str "truck_observation"), ("payload", .none)], .str "c1",
        rfl, rfl, fun _ => by decide⟩
    let observe (tick : Int) (c : Contact Whole) : Observation Whole :=
      ⟨.ofList [("tick", .int tick), ("contacts", .list [c.toVal])], .int tick, [c], rfl, rfl⟩
    Runs.answers (tickStep (⟨fun _ _ => pure ⟨true, none⟩⟩ : Session Unit Whole) .shipped) (fresh () false none none)
      [observe 0 human, observe 1 truck] = [.ok ⟨[human.toVal], []⟩, .ok ⟨[], []⟩] := rfl

end Episode

end HadrAgent
