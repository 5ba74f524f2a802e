import TypeTraits.Catalog.Basic

/-!
# `TypeTraits.Catalog.Standard`: the predicates on offer

The predicates of `TypeTraits.Descriptor.Category` under the names by which
queries call them, each with the predicates that its formula uses.

* `ofDefinitions_standard`: the definitions pass the check.
-/

set_option autoImplicit false

namespace TypeTraits.Catalog

open Descriptor

/-- The definitions in the order of listings. -/
def standardDefinitions : List Definition :=
  [⟨"is_void", .primary, [], isVoid⟩,
    ⟨"is_null_pointer", .primary, [], isNullPointer⟩,
    ⟨"is_integral", .primary, [], isIntegral⟩,
    ⟨"is_floating_point", .primary, [], isFloatingPoint⟩,
    ⟨"is_array", .primary, [], isArray⟩,
    ⟨"is_pointer", .primary, [], isPointer⟩,
    ⟨"is_lvalue_reference", .primary, [], isLvalueReference⟩,
    ⟨"is_rvalue_reference", .primary, [], isRvalueReference⟩,
    ⟨"is_enum", .primary, [], isEnum⟩,
    ⟨"is_union", .primary, [], isUnion⟩,
    ⟨"is_class", .primary, [], isClass⟩,
    ⟨"is_member_pointer", .primary, [], isMemberPointer⟩,
    ⟨"is_const", .property, [], isConst⟩,
    ⟨"is_volatile", .property, [], isVolatile⟩,
    ⟨"is_function", .primary, ["is_const", "is_lvalue_reference", "is_rvalue_reference"],
      isFunction⟩,
    ⟨"is_member_function_pointer", .primary, ["is_member_pointer", "is_function"],
      isMemberFunctionPointer⟩,
    ⟨"is_member_object_pointer", .primary, ["is_member_pointer", "is_member_function_pointer"],
      isMemberObjectPointer⟩,
    ⟨"is_reference", .composite, ["is_lvalue_reference", "is_rvalue_reference"], isReference⟩,
    ⟨"is_arithmetic", .composite, ["is_integral", "is_floating_point"], isArithmetic⟩,
    ⟨"is_fundamental", .composite, ["is_arithmetic", "is_void", "is_null_pointer"],
      isFundamental⟩,
    ⟨"is_scalar", .composite,
      ["is_arithmetic", "is_enum", "is_pointer", "is_member_pointer", "is_null_pointer"],
      isScalar⟩,
    ⟨"is_object", .composite, ["is_scalar", "is_array", "is_union", "is_class"], isObject⟩,
    ⟨"is_compound", .composite, ["is_fundamental"], isCompound⟩,
    ⟨"is_signed", .property, ["is_arithmetic"], isSigned⟩,
    ⟨"is_unsigned", .property, ["is_arithmetic", "is_signed"], isUnsigned⟩,
    ⟨"is_bounded_array", .property, ["is_array"], isBoundedArray⟩,
    ⟨"is_unbounded_array", .property, ["is_array"], isUnboundedArray⟩,
    ⟨"is_scoped_enum", .property, ["is_enum"], isScopedEnum⟩,
    ⟨"is_referenceable", .property, [], isReferenceable⟩]

/-- The catalog of the definitions. -/
def standard : Catalog := ⟨assignLayers [] standardDefinitions⟩

/-- The standard definitions are accepted, and the standard catalog is what they make. -/
theorem ofDefinitions_standard : ofDefinitions standardDefinitions = .ok standard := by
  have h₁ : firstRepeated [] (standardDefinitions.map (·.name)) = none := by decide +kernel
  have h₂ : firstMisuse (standardDefinitions.map (·.name)) [] standardDefinitions = none := by
    decide +kernel
  simp only [ofDefinitions, h₁, h₂, standard]

end TypeTraits.Catalog
