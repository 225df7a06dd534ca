import HeapEngine.Bytes

/-! The CRC-32 of a byte string: reflected, polynomial 0x04C11DB7, all ones before and after. -/

namespace HeapEngine.Checksum

/-- The generator polynomial with its bits reversed. -/
def polynomial : UInt32 := 0xEDB88320

/-- One bit through the register: shift right, and subtract the polynomial if a one fell out. -/
def bitStep (register : UInt32) : UInt32 :=
  if register &&& 1 = 1 then (register >>> 1) ^^^ polynomial else register >>> 1

/-- Eight bits through the register. -/
def eightBits (register : UInt32) : UInt32 :=
  bitStep (bitStep (bitStep (bitStep (bitStep (bitStep (bitStep (bitStep register)))))))

/-- One byte through the register. -/
def byteStep (register : UInt32) (byte : UInt8) : UInt32 :=
  -- The byte meets the lowest bits, which leave the register first.
  eightBits (register ^^^ byte.toUInt32)

/-- The CRC-32 of a byte string. -/
def crc32 (bytes : Bytes) : UInt32 :=
  -- Starting from ones lets leading zeros count.
  bytes.foldl byteStep 0xFFFFFFFF ^^^ 0xFFFFFFFF

end HeapEngine.Checksum
