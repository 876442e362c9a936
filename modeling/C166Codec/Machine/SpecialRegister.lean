import C166Codec.Text.Blank
import C166Codec.Text.Case
/-!
# Special function registers

The register file of the C167CR: each special function register has a name and a word address.
The ordinary registers lie in the window FE00h to FFFFh; the extended ones (`extended`) lie in
F000h to F1FFh and are reached through short addresses only inside an ext window.

Names are looked up without regard to case and blanks at both ends; addresses are looked up
exactly. No two registers share a name or an address.
-/

namespace C166Codec

/-- A named special function register. -/
structure SpecialRegister where
  /-- The register's name, in upper case. -/
  name : String
  /-- The register's word address. -/
  address : UInt16
  /-- True for a register of the extended window F000h to F1FFh. -/
  extended : Bool
  deriving DecidableEq, Repr

namespace SpecialRegister

/-- The register file, in its declared order. -/
def table : List SpecialRegister := [
  ⟨"DPP0", 0xFE00, false⟩,
  ⟨"DPP1", 0xFE02, false⟩,
  ⟨"DPP2", 0xFE04, false⟩,
  ⟨"DPP3", 0xFE06, false⟩,
  ⟨"CSP", 0xFE08, false⟩,
  ⟨"MDH", 0xFE0C, false⟩,
  ⟨"MDL", 0xFE0E, false⟩,
  ⟨"CP", 0xFE10, false⟩,
  ⟨"SP", 0xFE12, false⟩,
  ⟨"STKOV", 0xFE14, false⟩,
  ⟨"STKUN", 0xFE16, false⟩,
  ⟨"ADDRSEL1", 0xFE18, false⟩,
  ⟨"ADDRSEL2", 0xFE1A, false⟩,
  ⟨"ADDRSEL3", 0xFE1C, false⟩,
  ⟨"ADDRSEL4", 0xFE1E, false⟩,
  ⟨"PW0", 0xFE30, false⟩,
  ⟨"PW1", 0xFE32, false⟩,
  ⟨"PW2", 0xFE34, false⟩,
  ⟨"PW3", 0xFE36, false⟩,
  ⟨"T2", 0xFE40, false⟩,
  ⟨"T3", 0xFE42, false⟩,
  ⟨"T4", 0xFE44, false⟩,
  ⟨"T5", 0xFE46, false⟩,
  ⟨"T6", 0xFE48, false⟩,
  ⟨"CAPREL", 0xFE4A, false⟩,
  ⟨"T0", 0xFE50, false⟩,
  ⟨"T1", 0xFE52, false⟩,
  ⟨"T0REL", 0xFE54, false⟩,
  ⟨"T1REL", 0xFE56, false⟩,
  ⟨"CC16", 0xFE60, false⟩,
  ⟨"CC17", 0xFE62, false⟩,
  ⟨"CC18", 0xFE64, false⟩,
  ⟨"CC19", 0xFE66, false⟩,
  ⟨"CC20", 0xFE68, false⟩,
  ⟨"CC21", 0xFE6A, false⟩,
  ⟨"CC22", 0xFE6C, false⟩,
  ⟨"CC23", 0xFE6E, false⟩,
  ⟨"CC24", 0xFE70, false⟩,
  ⟨"CC25", 0xFE72, false⟩,
  ⟨"CC26", 0xFE74, false⟩,
  ⟨"CC27", 0xFE76, false⟩,
  ⟨"CC28", 0xFE78, false⟩,
  ⟨"CC29", 0xFE7A, false⟩,
  ⟨"CC30", 0xFE7C, false⟩,
  ⟨"CC31", 0xFE7E, false⟩,
  ⟨"CC0", 0xFE80, false⟩,
  ⟨"CC1", 0xFE82, false⟩,
  ⟨"CC2", 0xFE84, false⟩,
  ⟨"CC3", 0xFE86, false⟩,
  ⟨"CC4", 0xFE88, false⟩,
  ⟨"CC5", 0xFE8A, false⟩,
  ⟨"CC6", 0xFE8C, false⟩,
  ⟨"CC7", 0xFE8E, false⟩,
  ⟨"CC8", 0xFE90, false⟩,
  ⟨"CC9", 0xFE92, false⟩,
  ⟨"CC10", 0xFE94, false⟩,
  ⟨"CC11", 0xFE96, false⟩,
  ⟨"CC12", 0xFE98, false⟩,
  ⟨"CC13", 0xFE9A, false⟩,
  ⟨"CC14", 0xFE9C, false⟩,
  ⟨"CC15", 0xFE9E, false⟩,
  ⟨"ADDAT", 0xFEA0, false⟩,
  ⟨"WDT", 0xFEAE, false⟩,
  ⟨"S0TBUF", 0xFEB0, false⟩,
  ⟨"S0RBUF", 0xFEB2, false⟩,
  ⟨"S0BG", 0xFEB4, false⟩,
  ⟨"PECC0", 0xFEC0, false⟩,
  ⟨"PECC1", 0xFEC2, false⟩,
  ⟨"PECC2", 0xFEC4, false⟩,
  ⟨"PECC3", 0xFEC6, false⟩,
  ⟨"PECC4", 0xFEC8, false⟩,
  ⟨"PECC5", 0xFECA, false⟩,
  ⟨"PECC6", 0xFECC, false⟩,
  ⟨"PECC7", 0xFECE, false⟩,
  ⟨"PP0", 0xFEF0, false⟩,
  ⟨"PP1", 0xFEF2, false⟩,
  ⟨"PP2", 0xFEF4, false⟩,
  ⟨"PP3", 0xFEF6, false⟩,
  ⟨"P0L", 0xFF00, false⟩,
  ⟨"P0H", 0xFF02, false⟩,
  ⟨"P1L", 0xFF04, false⟩,
  ⟨"P1H", 0xFF06, false⟩,
  ⟨"BUSCON0", 0xFF0C, false⟩,
  ⟨"MDC", 0xFF0E, false⟩,
  ⟨"PSW", 0xFF10, false⟩,
  ⟨"SYSCON", 0xFF12, false⟩,
  ⟨"BUSCON1", 0xFF14, false⟩,
  ⟨"BUSCON2", 0xFF16, false⟩,
  ⟨"BUSCON3", 0xFF18, false⟩,
  ⟨"BUSCON4", 0xFF1A, false⟩,
  ⟨"ZEROS", 0xFF1C, false⟩,
  ⟨"ONES", 0xFF1E, false⟩,
  ⟨"T78CON", 0xFF20, false⟩,
  ⟨"CCM4", 0xFF22, false⟩,
  ⟨"CCM5", 0xFF24, false⟩,
  ⟨"CCM6", 0xFF26, false⟩,
  ⟨"CCM7", 0xFF28, false⟩,
  ⟨"PWMCON0", 0xFF30, false⟩,
  ⟨"PWMCON1", 0xFF32, false⟩,
  ⟨"T2CON", 0xFF40, false⟩,
  ⟨"T3CON", 0xFF42, false⟩,
  ⟨"T4CON", 0xFF44, false⟩,
  ⟨"T5CON", 0xFF46, false⟩,
  ⟨"T6CON", 0xFF48, false⟩,
  ⟨"T01CON", 0xFF50, false⟩,
  ⟨"CCM0", 0xFF52, false⟩,
  ⟨"CCM1", 0xFF54, false⟩,
  ⟨"CCM2", 0xFF56, false⟩,
  ⟨"CCM3", 0xFF58, false⟩,
  ⟨"T2IC", 0xFF60, false⟩,
  ⟨"T3IC", 0xFF62, false⟩,
  ⟨"T4IC", 0xFF64, false⟩,
  ⟨"T5IC", 0xFF66, false⟩,
  ⟨"T6IC", 0xFF68, false⟩,
  ⟨"CRIC", 0xFF6A, false⟩,
  ⟨"S0TIC", 0xFF6C, false⟩,
  ⟨"S0RIC", 0xFF6E, false⟩,
  ⟨"S0EIC", 0xFF70, false⟩,
  ⟨"SSCTIC", 0xFF72, false⟩,
  ⟨"SSCRIC", 0xFF74, false⟩,
  ⟨"SSCEIC", 0xFF76, false⟩,
  ⟨"CC0IC", 0xFF78, false⟩,
  ⟨"CC1IC", 0xFF7A, false⟩,
  ⟨"CC2IC", 0xFF7C, false⟩,
  ⟨"CC3IC", 0xFF7E, false⟩,
  ⟨"CC4IC", 0xFF80, false⟩,
  ⟨"CC5IC", 0xFF82, false⟩,
  ⟨"CC6IC", 0xFF84, false⟩,
  ⟨"CC7IC", 0xFF86, false⟩,
  ⟨"CC8IC", 0xFF88, false⟩,
  ⟨"CC9IC", 0xFF8A, false⟩,
  ⟨"CC10IC", 0xFF8C, false⟩,
  ⟨"CC11IC", 0xFF8E, false⟩,
  ⟨"CC12IC", 0xFF90, false⟩,
  ⟨"CC13IC", 0xFF92, false⟩,
  ⟨"CC14IC", 0xFF94, false⟩,
  ⟨"CC15IC", 0xFF96, false⟩,
  ⟨"ADCIC", 0xFF98, false⟩,
  ⟨"ADEIC", 0xFF9A, false⟩,
  ⟨"T0IC", 0xFF9C, false⟩,
  ⟨"T1IC", 0xFF9E, false⟩,
  ⟨"ADCON", 0xFFA0, false⟩,
  ⟨"P5", 0xFFA2, false⟩,
  ⟨"P5DIDIS", 0xFFA4, false⟩,
  ⟨"TFR", 0xFFAC, false⟩,
  ⟨"WDTCON", 0xFFAE, false⟩,
  ⟨"S0CON", 0xFFB0, false⟩,
  ⟨"SSCCON", 0xFFB2, false⟩,
  ⟨"P2", 0xFFC0, false⟩,
  ⟨"DP2", 0xFFC2, false⟩,
  ⟨"P3", 0xFFC4, false⟩,
  ⟨"DP3", 0xFFC6, false⟩,
  ⟨"P4", 0xFFC8, false⟩,
  ⟨"DP4", 0xFFCA, false⟩,
  ⟨"P6", 0xFFCC, false⟩,
  ⟨"DP6", 0xFFCE, false⟩,
  ⟨"P7", 0xFFD0, false⟩,
  ⟨"DP7", 0xFFD2, false⟩,
  ⟨"P8", 0xFFD4, false⟩,
  ⟨"DP8", 0xFFD6, false⟩,
  ⟨"T7", 0xF050, true⟩,
  ⟨"T8", 0xF052, true⟩,
  ⟨"T7REL", 0xF054, true⟩,
  ⟨"T8REL", 0xF056, true⟩,
  ⟨"SSCTB", 0xF0B0, true⟩,
  ⟨"SSCRB", 0xF0B2, true⟩,
  ⟨"SSCBR", 0xF0B4, true⟩,
  ⟨"RP0H", 0xF108, true⟩,
  ⟨"CC16IC", 0xF160, true⟩,
  ⟨"CC17IC", 0xF162, true⟩,
  ⟨"CC18IC", 0xF164, true⟩,
  ⟨"CC19IC", 0xF166, true⟩,
  ⟨"CC20IC", 0xF168, true⟩,
  ⟨"CC21IC", 0xF16A, true⟩,
  ⟨"CC22IC", 0xF16C, true⟩,
  ⟨"CC23IC", 0xF16E, true⟩,
  ⟨"CC24IC", 0xF170, true⟩,
  ⟨"CC25IC", 0xF172, true⟩,
  ⟨"CC26IC", 0xF174, true⟩,
  ⟨"CC27IC", 0xF176, true⟩,
  ⟨"CC28IC", 0xF178, true⟩,
  ⟨"CC29IC", 0xF184, true⟩,
  ⟨"CC30IC", 0xF18C, true⟩,
  ⟨"CC31IC", 0xF194, true⟩,
  ⟨"T7IC", 0xF17A, true⟩,
  ⟨"T8IC", 0xF17C, true⟩,
  ⟨"PWMIC", 0xF17E, true⟩,
  ⟨"XP0IC", 0xF186, true⟩,
  ⟨"XP1IC", 0xF18E, true⟩,
  ⟨"XP2IC", 0xF196, true⟩,
  ⟨"XP3IC", 0xF19E, true⟩,
  ⟨"EXICON", 0xF1C0, true⟩,
  ⟨"ODP2", 0xF1C2, true⟩,
  ⟨"ODP3", 0xF1C6, true⟩,
  ⟨"ODP6", 0xF1CE, true⟩,
  ⟨"ODP7", 0xF1D2, true⟩,
  ⟨"ODP8", 0xF1D6, true⟩
]

/-- The register at a word address. -/
def atAddress? (addr : UInt16) : Option SpecialRegister :=
  table.find? (·.address == addr)

/-- The register of a name, in any case and with blanks at both ends. -/
def named? (s : String) : Option SpecialRegister :=
  let key := Text.upper (Text.trim s)
  table.find? (·.name == key)

end SpecialRegister

end C166Codec
