/-! # Names of image formats

The numbers of image formats come in runs.  The first run holds the formats of the core interface
and the others the formats that came later.  A number outside every run has no name, and
`formatText` writes it as a signed decimal. -/

namespace DepthStencil

namespace FormatNames

/-- The formats numbered from 0. -/
def basic : List String :=
  ["UNDEFINED", "R4G4_UNORM_PACK8", "R4G4B4A4_UNORM_PACK16", "B4G4R4A4_UNORM_PACK16",
    "R5G6B5_UNORM_PACK16", "B5G6R5_UNORM_PACK16", "R5G5B5A1_UNORM_PACK16", "B5G5R5A1_UNORM_PACK16",
    "A1R5G5B5_UNORM_PACK16", "R8_UNORM", "R8_SNORM", "R8_USCALED", "R8_SSCALED", "R8_UINT",
    "R8_SINT", "R8_SRGB", "R8G8_UNORM", "R8G8_SNORM", "R8G8_USCALED", "R8G8_SSCALED", "R8G8_UINT",
    "R8G8_SINT", "R8G8_SRGB", "R8G8B8_UNORM", "R8G8B8_SNORM", "R8G8B8_USCALED", "R8G8B8_SSCALED",
    "R8G8B8_UINT", "R8G8B8_SINT", "R8G8B8_SRGB", "B8G8R8_UNORM", "B8G8R8_SNORM", "B8G8R8_USCALED",
    "B8G8R8_SSCALED", "B8G8R8_UINT", "B8G8R8_SINT", "B8G8R8_SRGB", "R8G8B8A8_UNORM",
    "R8G8B8A8_SNORM", "R8G8B8A8_USCALED", "R8G8B8A8_SSCALED", "R8G8B8A8_UINT", "R8G8B8A8_SINT",
    "R8G8B8A8_SRGB", "B8G8R8A8_UNORM", "B8G8R8A8_SNORM", "B8G8R8A8_USCALED", "B8G8R8A8_SSCALED",
    "B8G8R8A8_UINT", "B8G8R8A8_SINT", "B8G8R8A8_SRGB", "A8B8G8R8_UNORM_PACK32",
    "A8B8G8R8_SNORM_PACK32", "A8B8G8R8_USCALED_PACK32", "A8B8G8R8_SSCALED_PACK32",
    "A8B8G8R8_UINT_PACK32", "A8B8G8R8_SINT_PACK32", "A8B8G8R8_SRGB_PACK32",
    "A2R10G10B10_UNORM_PACK32", "A2R10G10B10_SNORM_PACK32", "A2R10G10B10_USCALED_PACK32",
    "A2R10G10B10_SSCALED_PACK32", "A2R10G10B10_UINT_PACK32", "A2R10G10B10_SINT_PACK32",
    "A2B10G10R10_UNORM_PACK32", "A2B10G10R10_SNORM_PACK32", "A2B10G10R10_USCALED_PACK32",
    "A2B10G10R10_SSCALED_PACK32", "A2B10G10R10_UINT_PACK32", "A2B10G10R10_SINT_PACK32",
    "R16_UNORM", "R16_SNORM", "R16_USCALED", "R16_SSCALED", "R16_UINT", "R16_SINT", "R16_SFLOAT",
    "R16G16_UNORM", "R16G16_SNORM", "R16G16_USCALED", "R16G16_SSCALED", "R16G16_UINT",
    "R16G16_SINT", "R16G16_SFLOAT", "R16G16B16_UNORM", "R16G16B16_SNORM", "R16G16B16_USCALED",
    "R16G16B16_SSCALED", "R16G16B16_UINT", "R16G16B16_SINT", "R16G16B16_SFLOAT",
    "R16G16B16A16_UNORM", "R16G16B16A16_SNORM", "R16G16B16A16_USCALED", "R16G16B16A16_SSCALED",
    "R16G16B16A16_UINT", "R16G16B16A16_SINT", "R16G16B16A16_SFLOAT", "R32_UINT", "R32_SINT",
    "R32_SFLOAT", "R32G32_UINT", "R32G32_SINT", "R32G32_SFLOAT", "R32G32B32_UINT",
    "R32G32B32_SINT", "R32G32B32_SFLOAT", "R32G32B32A32_UINT", "R32G32B32A32_SINT",
    "R32G32B32A32_SFLOAT", "R64_UINT", "R64_SINT", "R64_SFLOAT", "R64G64_UINT", "R64G64_SINT",
    "R64G64_SFLOAT", "R64G64B64_UINT", "R64G64B64_SINT", "R64G64B64_SFLOAT", "R64G64B64A64_UINT",
    "R64G64B64A64_SINT", "R64G64B64A64_SFLOAT", "B10G11R11_UFLOAT_PACK32",
    "E5B9G9R9_UFLOAT_PACK32", "D16_UNORM", "X8_D24_UNORM_PACK32", "D32_SFLOAT", "S8_UINT",
    "D16_UNORM_S8_UINT", "D24_UNORM_S8_UINT", "D32_SFLOAT_S8_UINT", "BC1_RGB_UNORM_BLOCK",
    "BC1_RGB_SRGB_BLOCK", "BC1_RGBA_UNORM_BLOCK", "BC1_RGBA_SRGB_BLOCK", "BC2_UNORM_BLOCK",
    "BC2_SRGB_BLOCK", "BC3_UNORM_BLOCK", "BC3_SRGB_BLOCK", "BC4_UNORM_BLOCK", "BC4_SNORM_BLOCK",
    "BC5_UNORM_BLOCK", "BC5_SNORM_BLOCK", "BC6H_UFLOAT_BLOCK", "BC6H_SFLOAT_BLOCK",
    "BC7_UNORM_BLOCK", "BC7_SRGB_BLOCK", "ETC2_R8G8B8_UNORM_BLOCK", "ETC2_R8G8B8_SRGB_BLOCK",
    "ETC2_R8G8B8A1_UNORM_BLOCK", "ETC2_R8G8B8A1_SRGB_BLOCK", "ETC2_R8G8B8A8_UNORM_BLOCK",
    "ETC2_R8G8B8A8_SRGB_BLOCK", "EAC_R11_UNORM_BLOCK", "EAC_R11_SNORM_BLOCK",
    "EAC_R11G11_UNORM_BLOCK", "EAC_R11G11_SNORM_BLOCK", "ASTC_4X4_UNORM_BLOCK",
    "ASTC_4X4_SRGB_BLOCK", "ASTC_5X4_UNORM_BLOCK", "ASTC_5X4_SRGB_BLOCK", "ASTC_5X5_UNORM_BLOCK",
    "ASTC_5X5_SRGB_BLOCK", "ASTC_6X5_UNORM_BLOCK", "ASTC_6X5_SRGB_BLOCK", "ASTC_6X6_UNORM_BLOCK",
    "ASTC_6X6_SRGB_BLOCK", "ASTC_8X5_UNORM_BLOCK", "ASTC_8X5_SRGB_BLOCK", "ASTC_8X6_UNORM_BLOCK",
    "ASTC_8X6_SRGB_BLOCK", "ASTC_8X8_UNORM_BLOCK", "ASTC_8X8_SRGB_BLOCK", "ASTC_10X5_UNORM_BLOCK",
    "ASTC_10X5_SRGB_BLOCK", "ASTC_10X6_UNORM_BLOCK", "ASTC_10X6_SRGB_BLOCK",
    "ASTC_10X8_UNORM_BLOCK", "ASTC_10X8_SRGB_BLOCK", "ASTC_10X10_UNORM_BLOCK",
    "ASTC_10X10_SRGB_BLOCK", "ASTC_12X10_UNORM_BLOCK", "ASTC_12X10_SRGB_BLOCK",
    "ASTC_12X12_UNORM_BLOCK", "ASTC_12X12_SRGB_BLOCK"]

/-- The PVRTC block formats. -/
def pvrtc : List String :=
  ["PVRTC1_2BPP_UNORM_BLOCK_IMG", "PVRTC1_4BPP_UNORM_BLOCK_IMG", "PVRTC2_2BPP_UNORM_BLOCK_IMG",
    "PVRTC2_4BPP_UNORM_BLOCK_IMG", "PVRTC1_2BPP_SRGB_BLOCK_IMG", "PVRTC1_4BPP_SRGB_BLOCK_IMG",
    "PVRTC2_2BPP_SRGB_BLOCK_IMG", "PVRTC2_4BPP_SRGB_BLOCK_IMG"]

/-- The ASTC block formats of floating-point numbers. -/
def astcFloat : List String :=
  ["ASTC_4X4_SFLOAT_BLOCK", "ASTC_5X4_SFLOAT_BLOCK", "ASTC_5X5_SFLOAT_BLOCK",
    "ASTC_6X5_SFLOAT_BLOCK", "ASTC_6X6_SFLOAT_BLOCK", "ASTC_8X5_SFLOAT_BLOCK",
    "ASTC_8X6_SFLOAT_BLOCK", "ASTC_8X8_SFLOAT_BLOCK", "ASTC_10X5_SFLOAT_BLOCK",
    "ASTC_10X6_SFLOAT_BLOCK", "ASTC_10X8_SFLOAT_BLOCK", "ASTC_10X10_SFLOAT_BLOCK",
    "ASTC_12X10_SFLOAT_BLOCK", "ASTC_12X12_SFLOAT_BLOCK"]

/-- The formats with subsampled or separate colour planes. -/
def subsampled : List String :=
  ["G8B8G8R8_422_UNORM", "B8G8R8G8_422_UNORM", "G8_B8_R8_3PLANE_420_UNORM",
    "G8_B8R8_2PLANE_420_UNORM", "G8_B8_R8_3PLANE_422_UNORM", "G8_B8R8_2PLANE_422_UNORM",
    "G8_B8_R8_3PLANE_444_UNORM", "R10X6_UNORM_PACK16", "R10X6G10X6_UNORM_2PACK16",
    "R10X6G10X6B10X6A10X6_UNORM_4PACK16", "G10X6B10X6G10X6R10X6_422_UNORM_4PACK16",
    "B10X6G10X6R10X6G10X6_422_UNORM_4PACK16", "G10X6_B10X6_R10X6_3PLANE_420_UNORM_3PACK16",
    "G10X6_B10X6R10X6_2PLANE_420_UNORM_3PACK16", "G10X6_B10X6_R10X6_3PLANE_422_UNORM_3PACK16",
    "G10X6_B10X6R10X6_2PLANE_422_UNORM_3PACK16", "G10X6_B10X6_R10X6_3PLANE_444_UNORM_3PACK16",
    "R12X4_UNORM_PACK16", "R12X4G12X4_UNORM_2PACK16", "R12X4G12X4B12X4A12X4_UNORM_4PACK16",
    "G12X4B12X4G12X4R12X4_422_UNORM_4PACK16", "B12X4G12X4R12X4G12X4_422_UNORM_4PACK16",
    "G12X4_B12X4_R12X4_3PLANE_420_UNORM_3PACK16", "G12X4_B12X4R12X4_2PLANE_420_UNORM_3PACK16",
    "G12X4_B12X4_R12X4_3PLANE_422_UNORM_3PACK16", "G12X4_B12X4R12X4_2PLANE_422_UNORM_3PACK16",
    "G12X4_B12X4_R12X4_3PLANE_444_UNORM_3PACK16", "G16B16G16R16_422_UNORM",
    "B16G16R16G16_422_UNORM", "G16_B16_R16_3PLANE_420_UNORM", "G16_B16R16_2PLANE_420_UNORM",
    "G16_B16_R16_3PLANE_422_UNORM", "G16_B16R16_2PLANE_422_UNORM", "G16_B16_R16_3PLANE_444_UNORM"]

/-- The formats with two planes of full size. -/
def twoPlane : List String :=
  ["G8_B8R8_2PLANE_444_UNORM", "G10X6_B10X6R10X6_2PLANE_444_UNORM_3PACK16",
    "G12X4_B12X4R12X4_2PLANE_444_UNORM_3PACK16", "G16_B16R16_2PLANE_444_UNORM"]

/-- The formats of four bits in each channel with alpha first. -/
def packed4444 : List String :=
  ["A4R4G4B4_UNORM_PACK16", "A4B4G4R4_UNORM_PACK16"]

/-- The format of motion vectors. -/
def flow : List String :=
  ["R16G16_S10_5_NV"]

/-- The formats of maintained alpha channels. -/
def alpha : List String :=
  ["A1B5G5R5_UNORM_PACK16_KHR", "A8_UNORM_KHR"]

/-- The runs of named formats, each with the number of its first format. -/
def runs : List (Int × List String) :=
  [(0, basic),
    (1000054000, pvrtc),
    (1000066000, astcFloat),
    (1000156000, subsampled),
    (1000330000, twoPlane),
    (1000340000, packed4444),
    (1000464000, flow),
    (1000470000, alpha)]

end FormatNames

/-- The name of the image format with a number, if it has one. -/
def formatName? (code : Int) : Option String :=
  FormatNames.runs.findSome? fun (first, names) =>
    if first ≤ code then names[(code - first).toNat]? else none

/-- The text of an image format: its name, or its number if it has none. -/
def formatText (code : Int) : String := (formatName? code).getD code.repr

end DepthStencil
