import SyncEngine.Shared.Protocol

/-!
# `RGAOperationSchema`

What the server lets through of an operation (`server/security/input-sanitizer.ts`): an INSERT or
a DELETE whose UIDs carry UUIDs as site ids, and of an INSERT one code point that is not a control
character other than tab and newline.

Whether a string is a UUID is decided by the schema library; here it is a parameter, `isUuid`.
The sentinel's site is no UUID, so an operation that was let through never names the sentinel
(`validated_of_schema`): that is what a validated message promises to the rest of the server.
-/

namespace SyncEngine

/-- `v.codePointAt(0)`, undefined on the empty string. -/
def JSString.codePointAt0 : JSString → Option Nat
  | [] => none
  | [u] => some u.val
  | u :: v :: _ =>
      if isHighSurrogate u && isLowSurrogate v then
        some ((u.val - 0xD800) * 0x400 + (v.val - 0xDC00) + 0x10000)
      else some u.val

namespace InputSanitizer

/-- The last test of `InsertOpSchema`: control characters are refused, tab and newline apart. -/
def disallowedControl (v : JSString) : Bool :=
  match v.codePointAt0 with
  | some code => code < 32 && code != 9 && code != 10
  | none => false

/-- The tests of a value that is a string. -/
def valueSchema (v : JSString) : Bool :=
  1 ≤ v.length && v.length ≤ 4 && v.codePoints.length == 1 && !disallowedControl v

variable (isUuid : JSString → Bool)

/-- `UIDSchema`; that a clock is a natural number is a matter of its type here. -/
def UIDSchema (uid : UID) : Bool := isUuid uid.siteId

/-- An INSERT passes with UIDs and a value that pass. -/
def InsertOpSchema (op : InsertOperation) : Bool :=
  UIDSchema isUuid op.uid && op.after.all (UIDSchema isUuid) &&
    match op.value with
    | .string v => valueSchema v
    | .object _ => false

/-- A DELETE passes with a UID that passes. -/
def DeleteOpSchema (op : DeleteOperation) : Bool := UIDSchema isUuid op.uid

/-- `RGAOperationSchema` knows two types of operations. -/
def RGAOperationSchema : RGAOperation → Bool
  | .insert op => InsertOpSchema isUuid op
  | .delete op => DeleteOpSchema isUuid op
  | _ => false

variable {isUuid}

/-- The tests of an operation: of its type, of the UIDs it names and of the character. -/
lemma schema_iff {op : RGAOperation} (hedit : op.IsEdit) :
    RGAOperationSchema isUuid op = true ↔
      (∀ u ∈ op.named, isUuid u.siteId = true) ∧
        ∀ i, op = .insert i → ∃ v, i.value = .string v ∧ valueSchema v = true := by
  cases op with
  | insert i =>
      cases hvalue : i.value with
      | string v => simp [RGAOperationSchema, InsertOpSchema, UIDSchema, RGAOperation.named, hvalue,
          Option.all_eq_true, and_assoc]
      | object json => simp [RGAOperationSchema, InsertOpSchema, RGAOperation.named, hvalue]
  | delete del => simp [RGAOperationSchema, DeleteOpSchema, UIDSchema, RGAOperation.named]
  | format _ => exact absurd hedit id
  | rollback _ => exact absurd hedit id

/-- An operation that was let through names nodes of proper sites. -/
lemma isUuid_of_schema {op : RGAOperation} (h : RGAOperationSchema isUuid op = true) :
    op.IsEdit ∧ ∀ u ∈ op.named, isUuid u.siteId = true := by
  have hedit : op.IsEdit := by
    cases op with
    | insert _ => exact trivial
    | delete _ => exact trivial
    | format _ => simp [RGAOperationSchema] at h
    | rollback _ => simp [RGAOperationSchema] at h
  exact ⟨hedit, ((schema_iff hedit).mp h).1⟩

/-- **What the schema lets through is a validated message**: the sentinel's site is no UUID, so the
sentinel is not named. -/
theorem validated_of_schema (hroot : isUuid rootUID.siteId = false) (msg : OperationMessage)
    (h : RGAOperationSchema isUuid msg.op = true) :
    ∃ valid : ValidatedOperationMessage, valid.toOperationMessage = msg := by
  obtain ⟨hedit, hnamed⟩ := isUuid_of_schema h
  refine ⟨⟨msg, hedit, ?_⟩, rfl⟩
  rintro u hu rfl
  rw [hnamed rootUID hu] at hroot
  exact Bool.noConfusion hroot

end InputSanitizer

end SyncEngine
