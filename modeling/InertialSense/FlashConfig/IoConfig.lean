/-! `imx_defaults.c`: the `ioConfig` that belongs to a platform. -/

namespace InertialSense.FlashConfig

/-- The carrier boards of `ePlatformConfig`. -/
inductive PlatformType where
  | none
  | noneOnboardG2
  | rug1
  | rug20G1
  | rug20G2
  | rug21G0
  | rug21G1
  | rug21G2
  | rug3G0
  | rug3G1
  | rug3G2
  | evb2G2
  | tbed3
  | ig10G2
  | ig1G1
  | ig1G2
  | ig2
  | lambdaG1
  | lambdaG2
  | tbed2G1WLambda
  | tbed2G2WLambda
deriving DecidableEq

/-- The boards in the order of their numbers. -/
def PlatformType.all : List PlatformType :=
  [.none, .noneOnboardG2, .rug1, .rug20G1, .rug20G2, .rug21G0, .rug21G1, .rug21G2, .rug3G0, .rug3G1,
    .rug3G2, .evb2G2, .tbed3, .ig10G2, .ig1G1, .ig1G2, .ig2, .lambdaG1, .lambdaG2, .tbed2G1WLambda,
    .tbed2G2WLambda]

/-- `platformConfig & PLATFORM_CFG_TYPE_MASK`. -/
def platformType (platformConfig : UInt32) : Option PlatformType :=
  PlatformType.all[(platformConfig &&& 0x3F).toNat]?

/-- `PLATFORM_CFG_PRESET_MASK` and `PLATFORM_CFG_PRESET_OFFSET`. -/
def platformPreset (platformConfig : UInt32) : Nat := ((platformConfig &&& 0xFF00) >>> 8).toNat

/-- Where a GPS receiver is connected. -/
inductive GpsSource where
  | disable
  | onboard1
  | onboard2
  | ser0
  | ser1
  | ser2

def GpsSource.code : GpsSource → UInt32
  | .disable => 0
  | .onboard1 => 1
  | .onboard2 => 2
  | .ser0 => 3
  | .ser1 => 4
  | .ser2 => 5

inductive GpsType where
  | ubxM8
  | ubxF9p
  | gpx

def GpsType.code : GpsType → UInt32
  | .ubxM8 => 0
  | .ubxF9p => 1
  | .gpx => 3

def setStatusOffsetMask (result val offset mask : UInt32) : UInt32 :=
  (result &&& ~~~(mask <<< offset)) ||| (val <<< offset)

def setIoCfgGps1Source (ioConfig : UInt32) (source : GpsSource) : UInt32 :=
  setStatusOffsetMask ioConfig source.code 16 0x7

def setIoCfgGps2Source (ioConfig : UInt32) (source : GpsSource) : UInt32 :=
  setStatusOffsetMask ioConfig source.code 19 0x7

def setIoCfgGps1Type (ioConfig : UInt32) (type : GpsType) : UInt32 :=
  setStatusOffsetMask ioConfig type.code 22 0x7

def setIoCfgGps2Type (ioConfig : UInt32) (type : GpsType) : UInt32 :=
  setStatusOffsetMask ioConfig type.code 25 0x7

def setGps (ioConfig : UInt32) (source1 source2 : GpsSource) (type : GpsType) : UInt32 :=
  setIoCfgGps2Type
    (setIoCfgGps1Type (setIoCfgGps2Source (setIoCfgGps1Source ioConfig source1) source2) type) type

/-- `IO_CONFIG_G1G2_CAN_BUS` and `IO_CONFIG_G1G2_COM2`, by the preset. -/
def rug3G1G2 (preset : Nat) : UInt32 :=
  match preset with
  | 1 | 2 | 8 => 0x4
  | 3 | 5 | 9 => 0x6
  | _ => 0

/-- `IO_CONFIG_G5G8_G6G7_SPI_ENABLE` or `IO_CONFIG_G5G8_DEFAULT`. -/
def rug3G5G8 (preset : Nat) : UInt32 := if preset = 6 then 0x400 else 0

def rug3Sources (ioConfig : UInt32) (preset : Nat) : UInt32 :=
  match preset with
  | 1 | 2 | 3 | 4 => setIoCfgGps2Source (setIoCfgGps1Source ioConfig .ser1) .disable
  | 5 | 6 | 7 => setIoCfgGps2Source (setIoCfgGps1Source ioConfig .ser2) .ser0
  | 8 | 9 => setIoCfgGps2Source (setIoCfgGps1Source ioConfig .ser1) .ser0
  | _ => ioConfig

def imxPlatformConfigToRug3FlashCfgIoConfig (ioConfig platformConfig : UInt32) : UInt32 :=
  let preset := platformPreset platformConfig
  let configure (gps1 gps2 : Bool) :=
    -- `IO_CONFIG_G1G2_MASK` and `IO_CONFIG_G5G8_MASK`
    let ioConfig := (ioConfig &&& ~~~0xE) ||| rug3G1G2 preset
    let ioConfig := (ioConfig &&& ~~~0x700) ||| rug3G5G8 preset
    let ioConfig := rug3Sources ioConfig preset
    let ioConfig := if gps1 then ioConfig else setIoCfgGps1Source ioConfig .disable
    let ioConfig := if gps2 then ioConfig else setIoCfgGps2Source ioConfig .disable
    setIoCfgGps2Type (setIoCfgGps1Type ioConfig .ubxF9p) .ubxF9p
  match platformType platformConfig with
  | some .rug21G0 | some .rug3G0 => configure false false
  | some .rug21G1 | some .rug3G1 => configure true false
  | some .rug21G2 | some .rug3G2 => configure true true
  | _ => ioConfig

/-- The `switch` on the platform type for the GPS ports. -/
def platformGps (ioConfig platformConfig : UInt32) : UInt32 :=
  match platformType platformConfig with
  | some .noneOnboardG2 | some .rug1 => setGps ioConfig .onboard1 .onboard2 .ubxM8
  | some .evb2G2 => setGps ioConfig .ser1 .ser2 .ubxF9p
  | some .rug20G1 => setGps ioConfig .ser1 .disable .ubxF9p
  | some .rug20G2 => setGps ioConfig .ser1 .ser0 .ubxF9p
  | some .rug21G1 | some .rug21G2 | some .rug3G1 | some .rug3G2 =>
    imxPlatformConfigToRug3FlashCfgIoConfig ioConfig platformConfig
  | some .ig1G1 => setGps ioConfig .ser0 .disable .ubxF9p
  | some .ig10G2 | some .ig1G2 => setGps ioConfig .ser0 .ser2 .ubxF9p
  | some .ig2 | some .tbed3 => setGps ioConfig .ser0 .ser0 .gpx
  | some .lambdaG1 => setGps ioConfig .ser1 .disable .ubxF9p
  | some .lambdaG2 => setGps ioConfig .ser1 .ser2 .ubxF9p
  | some .tbed2G1WLambda | some .tbed2G2WLambda =>
    -- `IO_CONFIG_GPS1_NO_INIT` and `IO_CONFIG_GPS2_NO_INIT`
    setGps ioConfig .ser2 .disable .ubxF9p ||| 0x00001000 ||| 0x10000000
  | _ => setGps ioConfig .disable .disable .ubxM8

/-- The GPS timepulse source: disabled, G8, G5, G9 or the PPS pin. -/
def timepulseSource (platformConfig : UInt32) : UInt32 :=
  match platformType platformConfig with
  | some .rug21G0 | some .rug3G0 | some .none => 0
  | some .evb2G2 | some .rug20G1 | some .rug20G2 | some .ig10G2 => 5
  | some .tbed3 => 4
  | some .rug21G1 | some .rug21G2 => 6
  | _ => 1

def imxPlatformConfigToFlashCfgIoConfig (ioConfig platformConfig : UInt32) : UInt32 :=
  setStatusOffsetMask (platformGps ioConfig platformConfig) (timepulseSource platformConfig) 13 0x7

end InertialSense.FlashConfig
