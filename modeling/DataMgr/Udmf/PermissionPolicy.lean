import DataMgr.Udmf.UnifiedData

/-! # Permission policies

A permission travels as a bit mask, as a legacy policy number and as the grant
flags of the ability framework. `UriPermissionUtil` is a parameter: of its
`NormalizeMask` only that it clears bits is ever assumed.
-/

namespace DataMgr.Udmf

inductive UriPermission where
  | read
  | write
  | persist
deriving DecidableEq, Repr

def readFlag : Mask := 1
def writeFlag : Mask := 2
def persistFlag : Mask := 4

def grantReadUriPermission : Mask := 0x1
def grantWriteUriPermission : Mask := 0x2
def grantPersistUriPermission : Mask := 0x40

namespace UriPermission

def flag : UriPermission → Mask
  | read => readFlag
  | write => writeFlag
  | persist => persistFlag

def grantFlag : UriPermission → Mask
  | read => grantReadUriPermission
  | write => grantWriteUriPermission
  | persist => grantPersistUriPermission

end UriPermission

def Has (mask flag : Mask) : Prop := mask &&& flag ≠ 0

instance (mask flag : Mask) : Decidable (Has mask flag) := inferInstanceAs (Decidable (_ ≠ _))

section

variable {a b flag : Mask}

theorem has_iff_exists_bit :
    Has a flag ↔ ∃ i, a.getLsbD i = true ∧ flag.getLsbD i = true := by
  constructor
  · intro h
    by_contra hnone
    apply h
    apply BitVec.eq_of_getLsbD_eq
    intro i _
    rw [BitVec.getLsbD_and]
    cases ha : a.getLsbD i with
    | false => simp
    | true =>
        cases hflag : flag.getLsbD i with
        | false => simp
        | true => exact absurd ⟨i, ha, hflag⟩ hnone
  · intro ⟨i, ha, hflag⟩ hzero
    have hbit := congrArg (BitVec.getLsbD · i) hzero
    simp [ha, hflag] at hbit

theorem not_has_zero : ¬ Has 0 flag := by
  rw [has_iff_exists_bit]
  intro ⟨i, hzero, _⟩
  simp at hzero

theorem Has.of_and (h : Has (a &&& b) flag) : Has a flag ∧ Has b flag := by
  obtain ⟨i, hbits, hflag⟩ := has_iff_exists_bit.mp h
  rw [BitVec.getLsbD_and, Bool.and_eq_true] at hbits
  exact ⟨has_iff_exists_bit.mpr ⟨i, hbits.1, hflag⟩, has_iff_exists_bit.mpr ⟨i, hbits.2, hflag⟩⟩

theorem Has.of_sub (hsub : a &&& b = a) (h : Has a flag) : Has b flag := by
  rw [← hsub] at h
  exact h.of_and.2

theorem has_or : Has (a ||| b) flag ↔ Has a flag ∨ Has b flag := by
  simp only [has_iff_exists_bit, BitVec.getLsbD_or, Bool.or_eq_true, or_and_right, exists_or]

end

structure UriPermissionUtil where
  normalizeMask : Mask → Mask
  toMask : List Int → Mask

/-- Normalising a mask adds no flag. -/
def UriPermissionUtil.Normalizes (util : UriPermissionUtil) : Prop :=
  ∀ mask, util.normalizeMask mask &&& mask = util.normalizeMask mask

def getPermissionPolicyMode (runtime : Option Runtime) : Int :=
  match runtime with
  | none => permissionPolicyModeLegacy
  | some runtime => runtime.permissionPolicyMode

section

variable (util : UriPermissionUtil)

def convertToGrantUriPermission (permissionMask : Mask) : Mask :=
  let permissionMask := util.normalizeMask permissionMask
  let grant := if Has permissionMask readFlag then grantReadUriPermission else 0
  let grant := if Has permissionMask writeFlag then grant ||| grantWriteUriPermission else grant
  if Has permissionMask persistFlag then grant ||| grantPersistUriPermission else grant

def toPermissionMaskByLegacyPolicy (permissionPolicy : Int) : Mask :=
  if permissionPolicy = policyOnlyRead then readFlag
  else if permissionPolicy = policyReadWrite ∨ permissionPolicy = policyUnknow then
    readFlag ||| writeFlag ||| persistFlag
  else 0

def toPermissionMask (obj : Object) (permissionPolicyMode : Int) : Mask :=
  let legacy :=
    match obj.permissionPolicy with
    | none => 0
    | some policy => toPermissionMaskByLegacyPolicy policy
  if permissionPolicyMode ≥ permissionPolicyModeMask then
    match obj.uriPermissionMask with
    | some mask => if mask ≥ 0 then util.normalizeMask (BitVec.ofInt 32 mask) else legacy
    | none => legacy
  else legacy

def toPermissionMaskOfUri (uriInfo : UriInfo) (permissionPolicyMode : Int) : Mask :=
  if permissionPolicyMode ≥ permissionPolicyModeMask then
    util.normalizeMask uriInfo.permissionMask
  else toPermissionMaskByLegacyPolicy uriInfo.permission

def toPermissionPolicy (permissionMask : Mask) : Int :=
  let permissionMask := util.normalizeMask permissionMask
  if permissionMask = 0 then policyNoPermission
  else if permissionMask = readFlag then policyOnlyRead
  else if Has permissionMask writeFlag then policyReadWrite
  else policyNoPermission

variable (properties : Option Properties) (recordObject : Option Object)

def getPropertiesUriAuthorizationMask : Option Mask :=
  match properties with
  | none => none
  | some properties =>
      if properties.uriAuthorizationPolicies.isEmpty then none
      else some (util.toMask properties.uriAuthorizationPolicies)

/-- The policy a record's object sets for itself. -/
def recordPermissionMask : Option Mask :=
  match recordObject.bind Object.uriAuthorizationPolicies with
  | some policies =>
      if policies ≥ 0 then some (util.normalizeMask (BitVec.ofInt 32 policies)) else none
  | none => none

/-- The policy in force for an object: its own, else that of the properties, else none. -/
def configuredMask : Option Mask :=
  (recordPermissionMask util recordObject).or (getPropertiesUriAuthorizationMask util properties)

/-- `GetAuthorizedUriPermissionMask`: whether anything is granted, and the mask. -/
def getAuthorizedUriPermissionMask (availableMask : Mask) : Bool × Mask :=
  let availableMask := util.normalizeMask availableMask
  if availableMask = 0 then (false, 0)
  else
    let configured := (configuredMask util properties recordObject).getD availableMask
    let grantMask := util.normalizeMask (availableMask &&& configured)
    (grantMask ≠ 0, grantMask)

def appendGrant (uriPermissions : Std.ExtTreeMap String Mask) (uri : String) (mask : Mask) :
    Std.ExtTreeMap String Mask :=
  let availableMask := util.normalizeMask mask
  if uri.isEmpty then uriPermissions
  else if availableMask = 0 then uriPermissions
  else
    let grantPermission := convertToGrantUriPermission util availableMask
    if grantPermission = 0 then uriPermissions
    else
      match uriPermissions[uri]? with
      | none => uriPermissions.insert uri grantPermission
      | some granted => uriPermissions.insert uri (granted ||| grantPermission)

def appendGrantUriPermission (strUris : Std.ExtTreeMap String Mask)
    (uriPermissions : Std.ExtTreeMap String Mask) : Std.ExtTreeMap String Mask :=
  strUris.toList.foldl (fun granted item => appendGrant util granted item.1 item.2) uriPermissions

end

section

variable {util : UriPermissionUtil} (hutil : util.Normalizes)

include hutil

theorem Has.of_normalizeMask {mask flag : Mask} (h : Has (util.normalizeMask mask) flag) :
    Has mask flag := h.of_sub (hutil mask)

theorem has_of_convertToGrantUriPermission {mask : Mask} {p : UriPermission}
    (h : Has (convertToGrantUriPermission util mask) p.grantFlag) : Has mask p.flag := by
  apply Has.of_normalizeMask hutil
  unfold convertToGrantUriPermission at h
  by_contra hnone
  cases p with
  | read | write | persist =>
      unfold UriPermission.flag at hnone
      simp only [if_neg hnone] at h
      revert h
      split <;> split <;> decide

theorem has_of_getAuthorizedUriPermissionMask {properties : Option Properties}
    {recordObject : Option Object} {available flag : Mask}
    (h : Has (getAuthorizedUriPermissionMask util properties recordObject available).2 flag) :
    Has available flag ∧
      ∀ configured, configuredMask util properties recordObject = some configured →
        Has configured flag := by
  unfold getAuthorizedUriPermissionMask at h
  dsimp only at h
  split at h
  · exact absurd h not_has_zero
  obtain ⟨havailable, hconfigured⟩ := (Has.of_normalizeMask hutil h).of_and
  refine ⟨Has.of_normalizeMask hutil havailable, ?_⟩
  intro configured heq
  rw [heq, Option.getD_some] at hconfigured
  exact hconfigured

end

/-- The permission is among those granted for the uri. -/
def Grants (uriPermissions : Std.ExtTreeMap String Mask) (uri : String) (p : UriPermission) :
    Prop :=
  ∃ granted, uriPermissions[uri]? = some granted ∧ Has granted p.grantFlag

/-- What a mask grants when it is appended. -/
def MaskGrants (util : UriPermissionUtil) (mask : Mask) (p : UriPermission) : Prop :=
  Has (convertToGrantUriPermission util (util.normalizeMask mask)) p.grantFlag

section

variable {util : UriPermissionUtil} {granted : Std.ExtTreeMap String Mask} {key : String}
  {mask : Mask} {p : UriPermission} (hutil : util.Normalizes)

theorem not_grants_empty : ¬ Grants ∅ key p := by
  rintro ⟨granted, hgranted, -⟩
  simp at hgranted

include hutil

theorem MaskGrants.has (h : MaskGrants util mask p) : Has mask p.flag :=
  Has.of_normalizeMask hutil (has_of_convertToGrantUriPermission hutil h)

theorem not_maskGrants_of_normalizeMask (h : util.normalizeMask mask = 0) :
    ¬ MaskGrants util mask p := by
  unfold MaskGrants
  rw [h]
  exact fun hgrants => not_has_zero (has_of_convertToGrantUriPermission hutil hgrants)

theorem grants_appendGrant {uri : String} :
    Grants (appendGrant util granted uri mask) key p ↔
      Grants granted key p ∨ (key = uri ∧ key ≠ "" ∧ MaskGrants util mask p) := by
  unfold appendGrant
  dsimp only
  split
  · rename_i hempty
    refine (or_iff_left ?_).symm
    rintro ⟨rfl, hne, -⟩
    exact hne (String.isEmpty_iff.mp hempty)
  rename_i hempty
  split
  · rename_i hzero
    exact (or_iff_left fun h => not_maskGrants_of_normalizeMask hutil hzero h.2.2).symm
  split
  · rename_i hzero
    refine (or_iff_left fun h => ?_).symm
    have hgrants := h.2.2
    rw [MaskGrants, hzero] at hgrants
    exact not_has_zero hgrants
  by_cases hsame : key = uri
  · subst hsame
    have hne : key ≠ "" := fun hnil => hempty (String.isEmpty_iff.mpr hnil)
    split
    · rename_i hnone
      simp [Grants, MaskGrants, hnone, hne]
    · rename_i old hold
      simp [Grants, MaskGrants, hold, hne, has_or]
  · have hother : ¬ compare uri key = .eq := by
      rw [Std.LawfulEqCmp.compare_eq_iff_eq]
      exact fun heq => hsame heq.symm
    split
    all_goals simp [Grants, Std.ExtTreeMap.getElem?_insert, hother, hsame]

theorem grants_appendGrantUriPermission {strUris : Std.ExtTreeMap String Mask} :
    Grants (appendGrantUriPermission util strUris granted) key p ↔
      Grants granted key p ∨
        (key ≠ "" ∧ ∃ mask, strUris[key]? = some mask ∧ MaskGrants util mask p) := by
  have hfold : ∀ (items : List (String × Mask)) (granted : Std.ExtTreeMap String Mask),
      Grants (items.foldl (fun granted item => appendGrant util granted item.1 item.2) granted)
          key p ↔
        Grants granted key p ∨
          (key ≠ "" ∧ ∃ mask, (key, mask) ∈ items ∧ MaskGrants util mask p) := by
    intro items
    induction items with
    | nil => simp
    | cons item items ih =>
        intro granted
        rw [List.foldl_cons, ih, grants_appendGrant hutil, or_assoc]
        refine or_congr_right ?_
        obtain ⟨uri, mask⟩ := item
        simp only [List.mem_cons, Prod.mk.injEq, or_and_right, exists_or, and_or_left]
        refine or_congr_left ?_
        constructor
        · rintro ⟨rfl, hne, hgrants⟩
          exact ⟨hne, mask, ⟨rfl, rfl⟩, hgrants⟩
        · rintro ⟨hne, _, ⟨rfl, rfl⟩, hgrants⟩
          exact ⟨rfl, hne, hgrants⟩
  simp only [appendGrantUriPermission, hfold, Std.ExtTreeMap.mem_toList_iff_getElem?_eq_some]

end

end DataMgr.Udmf
