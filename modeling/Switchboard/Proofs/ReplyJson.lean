import Switchboard.Proofs.Handling

/-!
# Switchboard.Proofs.ReplyJson

Replies as JSON and back.  Each part of a reply comes back as it was, with one
exception: a body that is `null` is written down, but it is read as no body at
all.  So the reply that is read is refused where the one that was written is
not.

The layers are those of the reader: shapes first, then cookies, then the parts
of a reply under their names.
-/

namespace Switchboard

/-! ## Shapes -/

namespace Json

variable {α : Type} {decode : Json → Except String α}

/-- A list comes back if its items do. -/
theorem asListOf_array (encode : α → Json) (h : ∀ a, decode (encode a) = .ok a) (as : List α) :
    asListOf decode (.array (as.map encode)) = .ok as := by
  rw [asListOf]
  induction as with
  | nil => rfl
  | cons a as ih => rw [List.map_cons, List.mapM_cons, h, ih]; rfl

/-- A map comes back if its values do. -/
theorem asDictOf_object (encode : α → Json) (h : ∀ a, decode (encode a) = .ok a) (d : Dict α) :
    asDictOf decode (.object (d.entries.map fun e => (e.1, encode e.2))) = .ok d := by
  have members (entries : List (String × α)) :
      (entries.map fun e => (e.1, encode e.2)).mapM (fun m => (decode m.2).map fun x => (m.1, x)) =
        .ok entries := by
    induction entries with
    | nil => rfl
    | cons e entries ih => rw [List.map_cons, List.mapM_cons, h, ih]; rfl
  rw [asDictOf, members]
  exact congrArg Except.ok d.ofList_entries

/-- What may be missing comes back, if nothing is written as `null`. -/
theorem asOption_ofOption (encode : α → Json) (h : ∀ a, decode (encode a) = .ok a)
    (ne : ∀ a, encode a ≠ .null) (o : Option α) :
    asOption decode (ofOption (o.map encode)) = .ok o := by
  cases o with
  | none => rfl
  | some a =>
      change asOption decode (encode a) = _
      rw [asOption.eq_2 _ _ (ne a), h]
      rfl

theorem asWord16_toNat (n : UInt16) : asWord16 (.int n.toNat) = .ok n := by
  simp [asWord16, n.toNat_lt]

end Json

/-! ## Cookies -/

theorem Cookie.ofJson_toJson (c : Cookie) : Cookie.ofJson c.toJson = .ok c := by
  have settings : Json.asDictOf .ok (.object c.options) = .ok c.settings := by
    have same := Json.asDictOf_object id (fun v => (rfl : Except.ok v = .ok v)) c.settings
    simpa [options] using same
  change (Json.asDictOf .ok (.object c.options)).bind
    (fun s => .ok (⟨c.name, c.value, s⟩ : Cookie)) = _
  rw [settings]
  rfl

/-! ## Replies -/

namespace Reply

/-- A reply as it is read back: a body that is `null` is none. -/
def withoutNull (r : Reply) : Reply := { r with body := r.body.filter fun v => !(v matches .null) }

/-- The parts of a reply are found under their names. -/
theorem get?_members (r : Reply) :
    let d := Dict.ofList r.members
    d.get? "body" = r.body ∧ d.get? "status" = r.status.map (fun s => Json.int s.toNat) ∧
      d.get? "headers" = r.headers.map Json.ofTexts ∧
      d.get? "cookies" = if r.cookies.isEmpty then none
        else some (.array (r.cookies.map (·.toJson))) := by
  -- No cookies are written like a part that is not set.
  have cookies : (if r.cookies.isEmpty then [] else
      [("cookies", Json.array (r.cookies.map (·.toJson)))]) =
      ((if r.cookies.isEmpty then none else some r.cookies).map
        fun cs => ("cookies", Json.array (cs.map (·.toJson)))).toList := by
    split <;> rfl
  simp only [members, cookies, Dict.ofList, Dict.insertAll_append, Dict.get?_insertAll_option,
    Dict.get?_insertAll_option _ fun v => v]
  cases r.cookies <;> simp

/-- Cookies are read back, whether or not there are any. -/
theorem cookies_read (cs : List Cookie) :
    ∃ read, (if cs.isEmpty then none else some (Json.array (cs.map (·.toJson)))).mapM
      (Json.asListOf Cookie.ofJson) = .ok read ∧ read.getD [] = cs := by
  cases cs with
  | nil => exact ⟨none, rfl, rfl⟩
  | cons c cs =>
      refine ⟨some (c :: cs), ?_, rfl⟩
      change (Json.asListOf Cookie.ofJson (.array ((c :: cs).map (·.toJson)))).map some = _
      rw [Json.asListOf_array Cookie.toJson Cookie.ofJson_toJson]
      rfl

/-- Everything but a body that is `null` is read back as it was. -/
theorem ofJson_toJson (r : Reply) : ofJson r.toJson = .ok r.withoutNull := by
  obtain ⟨body, status, headers, cookies⟩ := r.get?_members
  have body_read : Json.asOption .ok (.ofOption r.body) = .ok r.withoutNull.body := by
    unfold withoutNull
    rcases r.body with _ | _ | _ <;> rfl
  have status_read := Json.asOption_ofOption _ Json.asWord16_toNat nofun r.status
  have headers_read : Json.asOption headersOfJson (.ofOption (r.headers.map Json.ofTexts)) =
      .ok r.headers :=
    Json.asOption_ofOption _ (Json.asDictOf_object .string fun _ => rfl) nofun r.headers
  obtain ⟨read, cookies_read, same⟩ := cookies_read r.cookies
  unfold Dict.get? at body status headers cookies
  simp only [toJson, Json.ofMembers, ofJson, body, status, headers, cookies, body_read,
    status_read, headers_read, cookies_read]
  change Except.ok { r.withoutNull with cookies := read.getD [] } = _
  rw [same]
  rfl

theorem withoutNull_of_ne {r : Reply} (h : r.body ≠ some .null) : r.withoutNull = r := by
  obtain ⟨_ | _ | _, status, headers, cookies⟩ := r
  case some.null => exact absurd rfl h
  all_goals rfl

theorem withoutNull_body {r : Reply} (h : r.body = some .null) :
    r.withoutNull.body = none := by
  rw [withoutNull, h]
  rfl

/-- A reply survives being written as JSON and read again unless its body is
`null`: then it comes back without a body, and no response is made from it where
one would have been made before. -/
theorem json_preserves_iff (r : Reply) :
    ofJson r.toJson = .ok r.withoutNull ∧
    (ofJson r.toJson = .ok r ↔ r.body ≠ some .null) ∧
    ∀ x : Exchange, x.synthesize (some r.withoutNull) = x.synthesize (some r) ↔
      r.body ≠ some .null ∨ x.hasResponse = true := by
  refine ⟨r.ofJson_toJson, ⟨fun kept null => ?_, fun ne => ?_⟩, fun x => ⟨fun same => ?_, ?_⟩⟩
  · rw [ofJson_toJson, Except.ok.injEq] at kept
    have none := withoutNull_body null
    rw [kept, null] at none
    cases none
  · rw [ofJson_toJson, withoutNull_of_ne ne]
  · by_contra lost
    obtain ⟨null, free⟩ := not_or.1 lost
    rw [not_not] at null
    rw [Bool.not_eq_true] at free
    have bodiless : (some r.withoutNull).bind (·.body) = none := withoutNull_body null
    rw [Exchange.synthesize_bodiless free bodiless, Exchange.synthesize_written free null] at same
    cases same
  · rintro (ne | owned)
    · rw [withoutNull_of_ne ne]
    · rw [Exchange.synthesize_owned owned, Exchange.synthesize_owned owned]

end Reply

end Switchboard
