/-!
The fixed texts around the declarations of a header: its includes, the namespaces, the pointer types
and the functions that no instruction of the grammar stands for; then what closes the namespaces. -/

namespace SpirvBindings.Header

/-- The lines in front of all sections. -/
def openingLines : List String := [
  "// This file is generated by gen_intrinsics. Do not edit.",
  "#ifndef _NBL_BUILTIN_HLSL_SPIRV_INTRINSICS_CORE_INCLUDED_",
  "#define _NBL_BUILTIN_HLSL_SPIRV_INTRINSICS_CORE_INCLUDED_",
  "",
  "#ifdef __HLSL_VERSION",
  "#include \"spirv/unified1/spirv.hpp\"",
  "#include \"spirv/unified1/GLSL.std.450.h\"",
  "#endif",
  "",
  "#include \"nbl/builtin/hlsl/type_traits.hlsl\"",
  "",
  "namespace nbl",
  "\x7b",
  "namespace hlsl",
  "\x7b",
  "#ifdef __HLSL_VERSION",
  "namespace spirv",
  "\x7b",
  "",
  "//! General Decls",
  "template<uint32_t StorageClass, typename T>",
  "struct pointer",
  "\x7b",
  "   using type = vk::SpirvOpaqueType<spv::OpTypePointer, vk::Literal< vk::integral_constant<uint32_t, StorageClass> >, T>;",
  "\x7d;",
  "// physical storage buffer pointers carry an explicit size and alignment",
  "template<typename T>",
  "struct pointer<spv::StorageClassPhysicalStorageBuffer, T>",
  "\x7b",
  "   using type = vk::SpirvType<spv::OpTypePointer, sizeof(uint64_t), sizeof(uint64_t), vk::Literal<vk::integral_constant<uint32_t, spv::StorageClassPhysicalStorageBuffer> >, T>;",
  "\x7d;",
  "",
  "template<uint32_t StorageClass, typename T>",
  "using pointer_t = typename pointer<StorageClass, T>::type;",
  "",
  "template<uint32_t StorageClass, typename T>",
  "NBL_CONSTEXPR_STATIC_INLINE bool is_pointer_v = is_same_v<T, typename pointer<StorageClass, T>::type >;",
  "",
  "// address-of through a reference copy",
  "template<uint32_t StorageClass, typename T>",
  "[[vk::ext_instruction(spv::OpCopyObject)]]",
  "pointer_t<StorageClass, T> copyObject([[vk::ext_reference]] T value);",
  "",
  "//! Std 450 Extended set instructions",
  "template<typename SquareMatrix>",
  "[[vk::ext_instruction(34 /* GLSLstd450MatrixInverse */, \"GLSL.std.450\")]]",
  "SquareMatrix matrixInverse(NBL_CONST_REF_ARG(SquareMatrix) mat);",
  "",
  "//! Bitcast Instructions",
  "template<typename T, typename U>",
  "[[vk::ext_capability(spv::CapabilityPhysicalStorageBufferAddresses)]]",
  "[[vk::ext_instruction(spv::OpBitcast)]]",
  "enable_if_t<is_pointer_v<spv::StorageClassPhysicalStorageBuffer, T>, T> bitcast(U);",
  "",
  "template<typename T>",
  "[[vk::ext_capability(spv::CapabilityPhysicalStorageBufferAddresses)]]",
  "[[vk::ext_instruction(spv::OpBitcast)]]",
  "uint64_t bitcast(pointer_t<spv::StorageClassPhysicalStorageBuffer, T>);",
  "",
  "template<typename T>",
  "[[vk::ext_capability(spv::CapabilityPhysicalStorageBufferAddresses)]]",
  "[[vk::ext_instruction(spv::OpBitcast)]]",
  "pointer_t<spv::StorageClassPhysicalStorageBuffer, T> bitcast(uint64_t);"]

/-- The lines behind the last declaration. -/
def closingLines : List String := [
  "\x7d",
  "",
  "#endif",
  "\x7d",
  "\x7d",
  "",
  "#endif"]

def linesText (lines : List String) : String := String.join (lines.map (· ++ "\n"))

def opening : String := linesText openingLines

def closing : String := linesText closingLines

end SpirvBindings.Header
