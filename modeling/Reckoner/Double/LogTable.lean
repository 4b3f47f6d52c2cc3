/-!
# Points of the logarithm table

The interval from one to two is cut into 64 equal parts. For each part the table has a point
near its centre, by its reciprocal to 53 binary places and its logarithm to 42. The point is
one whose logarithm happens to have zeros for some more places.
-/

namespace Reckoner.Double

structure LogPoint where
  /-- The reciprocal of the point in units of `2 ^ -53`. -/
  reciprocal : Nat
  /-- The binary logarithm of the point in units of `2 ^ -42`. -/
  logarithm : Nat
  deriving DecidableEq, Repr

/-- The points in the order of their parts. -/
def logPoints : List LogPoint :=
  [⟨0x1FC07EF9CAA76B, 0x00B7F29D8A8⟩, ⟨0x1F4465D3F6F184, 0x0223999C21F⟩,
   ⟨0x1ECC079F84107F, 0x0389BF91917⟩, ⟨0x1E573A99975AE8, 0x04EA8C8795D⟩,
   ⟨0x1DE5D6F0BD3DE6, 0x0646283422E⟩, ⟨0x1D77B681FF38B3, 0x079CBA76811⟩,
   ⟨0x1D0CB5724DE943, 0x08EE69283FB⟩, ⟨0x1CA4B2DC0E7563, 0x0A3B5581EF5⟩,
   ⟨0x1C3F8EE8D6CB51, 0x0B83A1BBF11⟩, ⟨0x1BDD2B4F020C4C, 0x0CC76F45D4A⟩,
   ⟨0x1B7D6C006015CA, 0x0E06DC35697⟩, ⟨0x1B20366E2E338F, 0x0F420557E77⟩,
   ⟨0x1AC57026295039, 0x10790AB4678⟩, ⟨0x1A6D01BC2731DD, 0x11AC056801C⟩,
   ⟨0x1A16D3BC3FF18B, 0x12DB11D4FEE⟩, ⟨0x19C2D14967FEAD, 0x1406464EC58⟩,
   ⟨0x1970E4F47C9902, 0x152DBE093AF⟩, ⟨0x1920FB3982BCF2, 0x1651902050D⟩,
   ⟨0x18D30187F759F1, 0x1771D2CDEAF⟩, ⟨0x1886E5EBB9F66D, 0x188E9C857D9⟩,
   ⟨0x183C97B658B994, 0x19A80155E16⟩, ⟨0x17F405FFC61022, 0x1ABE186ED3D⟩,
   ⟨0x17AD22181415CA, 0x1BD0F2AEA0E⟩, ⟨0x1767DCF99EFF8C, 0x1CE0A43DBF4⟩,
   ⟨0x1724286BB1ACF8, 0x1DED402264A⟩, ⟨0x16E1F766D2CCA1, 0x1EF6D685126⟩,
   ⟨0x16A13D0E30D48A, 0x1FFD78A22E1⟩, ⟨0x1661EC32D06C85, 0x21013AC9F4C⟩,
   ⟨0x1623FA951198F8, 0x220226E5482⟩, ⟨0x15E75BA4CF026C, 0x230051F3387⟩,
   ⟨0x15AC055A214FB8, 0x23FBC7EE026⟩, ⟨0x1571ED0F166E1E, 0x24F498CDC52⟩,
   ⟨0x153909590BF835, 0x25EAD0A5D25⟩, ⟨0x15014FED61ADDD, 0x26DE80A507A⟩,
   ⟨0x14CAB88E487BD0, 0x27CFB24F8E7⟩, ⟨0x149539B4334FEE, 0x28BE7606562⟩,
   ⟨0x1460CBDFAFD569, 0x29AAD44AE67⟩, ⟨0x142D664EE4B953, 0x2A94DC5D64F⟩,
   ⟨0x13FB01111DD8A6, 0x2B7C9AF0A06⟩, ⟨0x13C995B70C5836, 0x2C6216C8096⟩,
   ⟨0x13991C4AB6FD4A, 0x2D455EAC72A⟩, ⟨0x13698E0CE099B5, 0x2E267CBF35C⟩,
   ⟨0x133AE48213E7B2, 0x2F057AC5BF2⟩, ⟨0x130D191985BDB1, 0x2FE263CD18D⟩,
   ⟨0x12E025CAB271D7, 0x30BD412E82D⟩, ⟨0x12B404CF13CD82, 0x31961BCE614⟩,
   ⟨0x1288B02C7CCB50, 0x326CFE59F5B⟩, ⟨0x125E2263944DE5, 0x3341F1E8581⟩,
   ⟨0x1234563D8615B1, 0x3414FEE0400⟩, ⟨0x120B46E33EAF38, 0x34E62C72FD1⟩,
   ⟨0x11E2EEFDCDA3DD, 0x35B5850B548⟩, ⟨0x11BB4A580B3930, 0x36830DED8FB⟩,
   ⟨0x119453847F2200, 0x374ED352812⟩, ⟨0x116E06C0D5D73C, 0x3818D96290A⟩,
   ⟨0x11485F47B7E4C2, 0x38E12A29019⟩, ⟨0x112358AD0085D1, 0x39A7CE7C02E⟩,
   ⟨0x10FEF00F532227, 0x3A6CC76E128⟩, ⟨0x10DB2077D03A8F, 0x3B3021D37FB⟩,
   ⟨0x10B7E6D65980D9, 0x3BF1E0B96F5⟩, ⟨0x10953EFE7B408D, 0x3CB20DBEE96⟩,
   ⟨0x107325CAC53B83, 0x3D70AD56112⟩, ⟨0x105197E40D1B5C, 0x3E2DC573AF4⟩,
   ⟨0x103091C1208EA2, 0x3EE95D9D688⟩, ⟨0x10101025B37E21, 0x3FA37C1C9C6⟩]

theorem length_logPoints : logPoints.length = 64 := rfl

def logPoint (part : Fin 64) : LogPoint := logPoints.get (part.cast length_logPoints.symm)

end Reckoner.Double
