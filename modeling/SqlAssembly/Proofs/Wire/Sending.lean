import SqlAssembly.Proofs.Wire.Reader

/-!
# Sending values

A list is sent by a general writer of arrays, which asks each item for its bytes and panics for a
type that is no array. A list for such a type is refused before the writer sees it, at any depth, so
sending a value gives its bytes or an error (`Value.send_eq`). A list in a list is always refused
(`Value.exists_wire_eq_error_of_within`), as no type has arrays for items.
-/

namespace SqlAssembly

/-! ### Senders -/

/-- How sending goes wrong: with an error, or with a panic. -/
inductive SendFault where
  | refused (e : WireError)
  | panicked
  deriving DecidableEq, Repr

/-- Something that can be sent for a placeholder: its bytes for a type, or none for a null. -/
abbrev Sender := WireType → Except SendFault (Option (List UInt8))

/-- Whether there is a null among the items of an array, and the items one after the other. -/
def sendItems (element : ScalarType) : List Sender → Except SendFault (Bool × List UInt8)
  | [] => return (false, [])
  | send :: sends => do
    let item ← send (.scalar element)
    let first ← (Value.wireItem item).mapError .refused
    let (nulls, rest) ← sendItems element sends
    return (item.isNone || nulls, first ++ rest)

/-- An array of anything that can be sent. There is a panic for a type that is no array. -/
def sendArray (items : List Sender) : Sender
  | .scalar _ => throw .panicked
  | .array element => do
    let length ← (counted 4 items.length).mapError .refused
    let (nulls, body) ← sendItems element items
    return some (bigEndian 4 1 ++ bigEndian 4 (if nulls then 1 else 0)
      ++ bigEndian 4 element.oid ++ length ++ bigEndian 4 1 ++ body)

/-! ### Values -/

namespace Value

mutual

/-- A value as something that can be sent: a list as an array, if the type is one. -/
def send : Value → Sender
  | .list items => fun
    | .scalar t => throw (.refused (.listForScalar t))
    | .array element => sendArray (sendAll items) (.array element)
  | v => fun type => (v.wire type).mapError .refused

/-- The items of a list as something that can be sent. -/
def sendAll : List Value → List Sender
  | [] => []
  | v :: vs => send v :: sendAll vs

end

theorem length_sendAll (vs : List Value) : (sendAll vs).length = vs.length := by
  induction vs with
  | nil => rfl
  | cons v vs ih => rw [sendAll, List.length_cons, List.length_cons, ih]

mutual

/-- A value is sent as its bytes, or refused for the reason that there are none: there is no
panic. -/
theorem send_eq (v : Value) (type : WireType) : v.send type = (v.wire type).mapError .refused := by
  match v, type with
  | .list items, .scalar t => simp only [send, wire]; rfl
  | .list items, .array element =>
    have hitems := sendItems_sendAll items element
    simp only [send, wire, sendArray, length_sendAll, hitems]
    cases counted 4 items.length with
    | error e => rfl
    | ok length => cases wireItems element items <;> rfl
  | .null, _ | .bool _, _ | .int _, _ | .float _, _ | .text _, _ | .bytes _, _ | .json _, _
  | .uuid _, _ | .date _, _ | .timestamp _, _ | .instant _, _ => simp only [send]

theorem sendItems_sendAll (vs : List Value) (element : ScalarType) :
    sendItems element (sendAll vs)
      = ((wireItems element vs).map fun body => (vs.any isNull, body)).mapError .refused := by
  match vs with
  | [] => rfl
  | v :: vs =>
    have hfirst := send_eq v (.scalar element)
    have hrest := sendItems_sendAll vs element
    simp only [sendAll, sendItems, wireItems, hfirst, hrest, List.any_cons]
    cases hitem : v.wire (.scalar element) with
    | error e => rfl
    | ok item =>
      rw [isNull_of_wire hitem]
      cases hbytes : wireItem item with
      | error e => simp [hbytes]
      | ok bytes => cases wireItems element vs <;> simp [hbytes]

end

/-! ### Lists in lists -/

/-- A value stands in another, at any depth. -/
inductive Within : Value → Value → Prop where
  | item {v : Value} {items : List Value} : v ∈ items → Within v (list items)
  | inner {v w : Value} {items : List Value} : Within v w → w ∈ items → Within v (list items)

/-- A list that stands in another stands among its items, or in a list that does. -/
theorem Within.exists_list_mem {inner items : List Value} (h : Within (list inner) (list items)) :
    ∃ middle, list middle ∈ items := by
  cases h with
  | item hmem => exact ⟨inner, hmem⟩
  | inner hwithin hmem => cases hwithin <;> exact ⟨_, hmem⟩

/-- The items of an array can be written exactly if each of them can. -/
theorem succeeds_wireItems {element : ScalarType} {vs : List Value} :
    Except.Succeeds (wireItems element vs)
      ↔ ∀ v ∈ vs, Except.Succeeds (v.wire (.scalar element) >>= wireItem) := by
  induction vs with
  | nil => simp [wireItems]
  | cons v vs ih =>
    have hsplit : wireItems element (v :: vs)
        = (v.wire (.scalar element) >>= wireItem) >>= fun first =>
          wireItems element vs >>= fun rest => pure (first ++ rest) := by
      simp only [wireItems, bind_assoc]
    rw [hsplit, List.forall_mem_cons, ← ih]
    refine Except.succeeds_bind_iff fun first _ => ?_
    exact Except.succeeds_bind_of_forall fun rest => Except.succeeds_ok _

theorem succeeds_wire_array {element : ScalarType} {items : List Value} :
    Except.Succeeds ((list items).wire (.array element))
      ↔ Fits 4 items.length
        ∧ ∀ v ∈ items, Except.Succeeds (v.wire (.scalar element) >>= wireItem) := by
  rw [← succeeds_wireItems]
  simp only [wire]
  have hlength : Except.Succeeds (counted 4 items.length) ↔ Fits 4 items.length := by
    simp [Except.Succeeds, counted_eq_ok]
  rw [← hlength]
  refine Except.succeeds_bind_iff fun length _ => ?_
  exact Except.succeeds_bind_of_forall fun body => Except.succeeds_ok _

/-- A list with a list in it is refused, whatever the type. -/
theorem exists_wire_eq_error_of_within {inner items : List Value}
    (h : Within (list inner) (list items)) (type : WireType) :
    ∃ e, (list items).wire type = .error e := by
  cases type with
  | scalar t => exact ⟨.listForScalar t, rfl⟩
  | array element =>
    obtain ⟨middle, hmem⟩ := h.exists_list_mem
    have hitem : ¬ Except.Succeeds ((list middle).wire (.scalar element) >>= wireItem) := by
      simp [wire]
    exact Except.not_succeeds_iff.1 fun hlist => hitem ((succeeds_wire_array.1 hlist).2 _ hmem)

end Value

end SqlAssembly
