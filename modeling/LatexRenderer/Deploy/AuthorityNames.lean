import LatexRenderer.Model.Deploy.AuthorityStore

/-! # The names of the authority's challenges

The management hostname spells the identity of its installation, and the label of a LAN address holds nothing
but digits and hyphens of one shape. So no two installations share a management hostname, and neither kind of
name is one that the operator reserves.
-/

namespace LatexRenderer

open Machine

section Digits

/-- The number that a text of a base up to 36 stands for. -/
def textValue (base : Nat) (text : Text) : Nat := Nat.ofDigits base (text.reverse.map digitValue)

theorem digitValue_digitText {digit : Nat} (small : digit < 36) : digitValue (digitText digit) = digit := by
  have all : ∀ d : Fin 36, digitValue (digitText d) = d := by decide
  exact all ⟨digit, small⟩

theorem textValue_toText {base : Nat} (several : 1 < base) (few : base ≤ 36) (value : Nat) :
    textValue base (toText base value) = value := by
  unfold toText textValue
  split
  · next zero => simp [zero, digitValue]
  · have digits : ((Nat.digits base value).map digitText).map digitValue = Nat.digits base value := by
      rw [List.map_map]
      refine (List.map_congr_left fun digit member => ?_).trans (List.map_id _)
      exact digitValue_digitText (Nat.lt_of_lt_of_le (Nat.digits_lt_base several member) few)
    rw [List.reverse_reverse, digits, Nat.ofDigits_digits]

theorem toText_injective : Function.Injective (toText 36) :=
  Function.LeftInverse.injective (textValue_toText (by decide) (by decide))

end Digits

section Hostnames

variable {domain hostname : Text} {id other : InstallationId}

theorem managementHostname_eq (named : lanHttpsManagementHostname id domain = .ok hostname) :
    ∃ normalized, normalizeLanHttpsDomain domain = .ok normalized ∧
      hostname = 'i' :: '-' :: toText 36 id.toNat ++ ".instances.".toList ++ normalized := by
  unfold lanHttpsManagementHostname at named
  split at named
  · cases named
  · next normalized same =>
    refine ⟨normalized, same, ?_⟩
    dsimp only at named
    split at named
    · cases named
    · exact (Except.ok.inj named).symm

/-- Two installations have two management hostnames. -/
theorem managementHostname_injective (first : lanHttpsManagementHostname id domain = .ok hostname)
    (second : lanHttpsManagementHostname other domain = .ok hostname) : id = other := by
  obtain ⟨normalized, same, rfl⟩ := managementHostname_eq first
  obtain ⟨again, also, spelled⟩ := managementHostname_eq second
  obtain rfl : normalized = again := Except.ok.inj (same.symm.trans also)
  have digits : toText 36 id.toNat = toText 36 other.toNat := by simpa using spelled
  exact BitVec.eq_of_toNat_eq (toText_injective digits)

variable {policy : AuthorityPolicy}

/-- The operator reserves no management hostname. -/
theorem managementHostname_reserved (named : lanHttpsManagementHostname id policy.lanDomain = .ok hostname) :
    hostname ∉ operatorHostnames policy := by
  obtain ⟨normalized, same, rfl⟩ := managementHostname_eq named
  obtain rfl : policy.lanDomain = normalized := Except.ok.inj (policy.normalized.symm.trans same)
  intro reserved
  rcases List.mem_pair.mp reserved with whole | control
  · have length := congrArg List.length whole
    simp at length
    omega
  · have first := congrArg List.head? control
    simp at first

variable {toLowerCase : Text → Text} {address : Text}

theorem lanHttpsAddress_eq (accepted : lanHttpsAddress toLowerCase hostname domain = .ok address) :
    ∃ normalized label, normalizeLanHttpsDomain domain = .ok normalized ∧
      toLowerCase hostname = label ++ '.' :: normalized ∧ (ipv4Label label = true ∨ ipv6Label label = true) ∧
      ∃ encoded, lanHttpsHostname encoded domain = .ok (toLowerCase hostname) := by
  unfold lanHttpsAddress at accepted
  simp only [bind_eq_ok, demand_eq_ok] at accepted
  obtain ⟨normalized, same, -, within, encoded, label, checked, -, canonical, spelled, -, named, -⟩ := accepted
  subst named
  obtain ⟨front, whole⟩ := within
  refine ⟨normalized, front, same, whole.symm, ?_, encoded, spelled⟩
  have cut : (toLowerCase hostname).take ((toLowerCase hostname).length - ('.' :: normalized).length) = front := by
    rw [← whole]
    simp
  rw [cut] at label
  unfold labelAddress at label
  split at label
  · next four => exact .inl four
  · split at label
    · next six => exact .inr six
    · cases label

theorem ipv4Label_management {digits : Text} : ipv4Label ('i' :: '-' :: digits) = false := by
  simp [ipv4Label, splitText]

theorem ipv6Label_management {digits : Text} : ipv6Label ('i' :: '-' :: digits) = false := by
  simp [ipv6Label, splitText]

theorem lanHttpsAddress_management (accepted : lanHttpsAddress toLowerCase hostname domain = .ok address)
    (named : lanHttpsManagementHostname id domain = .ok (toLowerCase hostname)) : False := by
  obtain ⟨normalized, label, same, whole, shape, -⟩ := lanHttpsAddress_eq accepted
  obtain ⟨again, also, spelled⟩ := managementHostname_eq named
  obtain rfl : normalized = again := Except.ok.inj (same.symm.trans also)
  have labels : label = 'i' :: '-' :: (toText 36 id.toNat ++ ".instances".toList) := by
    have instances : ".instances.".toList = ".instances".toList ++ ['.'] := by decide
    have both : label ++ '.' :: normalized =
        ('i' :: '-' :: (toText 36 id.toNat ++ ".instances".toList)) ++ '.' :: normalized := by
      rw [← whole, spelled, instances]
      simp
    exact List.append_cancel_right both
  rw [labels, ipv4Label_management, ipv6Label_management] at shape
  exact shape.elim Bool.false_ne_true Bool.false_ne_true

theorem lanHttpsAddress_reserved (accepted : lanHttpsAddress toLowerCase hostname policy.lanDomain = .ok address) :
    toLowerCase hostname ∉ operatorHostnames policy := by
  obtain ⟨normalized, label, same, whole, shape, -⟩ := lanHttpsAddress_eq accepted
  obtain rfl : policy.lanDomain = normalized := Except.ok.inj (policy.normalized.symm.trans same)
  intro reserved
  rcases List.mem_pair.mp reserved with domain | control
  · have length := congrArg List.length (whole.symm.trans domain)
    simp at length
    omega
  · have dot : "authority-control.".toList = "authority-control".toList ++ ['.'] := by decide
    have both := whole.symm.trans control
    rw [dot, List.append_assoc] at both
    rw [List.append_cancel_right both] at shape
    exact shape.elim (by decide) (by decide)

end Hostnames

end LatexRenderer
