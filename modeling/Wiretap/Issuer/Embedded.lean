import Wiretap.Pem

/-!
# The built-in authority

The certificate and the key of the authority that signs unless another one is
given, as the two armoured files that ship with the program.
-/

set_option autoImplicit false

namespace Wiretap.Embedded
open Wiretap.Text

def certificateDigits : String :=
  "MIIDbzCCAlegAwIBAgIUfNBSVWhNzc5Uj4GNPZYc75JF/NwwDQYJKoZIhvcNAQEL" ++
  "BQAwPzELMAkGA1UEBhMCQ0gxDzANBgNVBAoMBnRjcHRhcDEfMB0GA1UEAwwWdGNw" ++
  "dGFwIEludGVyY2VwdGlvbiBDQTAeFw0yNjEwMTYyMzI5MzFaFw0zNjEwMTMyMzI5" ++
  "MzFaMD8xCzAJBgNVBAYTAkNIMQ8wDQYDVQQKDAZ0Y3B0YXAxHzAdBgNVBAMMFnRj" ++
  "cHRhcCBJbnRlcmNlcHRpb24gQ0EwggEiMA0GCSqGSIb3DQEBAQUAA4IBDwAwggEK" ++
  "AoIBAQDd3qKW2IN+IWZQsaBEniEKYBc6uv0Yzb2lvviTq8ERJJ66uMV05QWnD94V" ++
  "WIKdhSJMe9AQHMAiGOo7gJuTR7cKnYYzCYJQCAzacxsHHE+DD8o5MnveSte22otf" ++
  "s6gtoTBeBFePqiKzJS1Z5/KHujgbmrnvjOfpNTO6QbyR/q8hkSbDHYyASsdDIHZR" ++
  "ojAfR0Lq1+ATd6s2fjYrm7QBAncrT3+TTMNEUoFTHegHjCeqK60PvbL5mKBPUjUt" ++
  "irhpDHbtE50c4xfw8t5L8BI17/XCBq+RneatFoqUfNBkKWYUiJZwmNehSNNgxYGi" ++
  "enG3PZgbnY4oV1DOSs3vfY9DuvqlAgMBAAGjYzBhMB8GA1UdIwQYMBaAFHfe60hW" ++
  "eMZiLz6pEKUf5/NuaaerMA8GA1UdEwEB/wQFMAMBAf8wDgYDVR0PAQH/BAQDAgGG" ++
  "MB0GA1UdDgQWBBR33utIVnjGYi8+qRClH+fzbmmnqzANBgkqhkiG9w0BAQsFAAOC" ++
  "AQEAFp8jjmy7FVZ6Uu1jJVAQgRno+L/he6V0KkXL6T6iYoqOhM0/UmGewRm8cGyW" ++
  "/kq72N9fSVjhFpoTvjJowaoiT7NS8d3TvdhtfO/SFJvQm29aiGqiZj/K8IFvanLg" ++
  "D5LQxomRYP6hfASFW88IZX6joymUJ3zFRE/YNYSeAXpfbiO8HrYIwWeG6VknDGdQ" ++
  "nz7dFj4hq9VunVRYi2joiJFANohZO5CIFM6VBGNCulElrWMJvpWWvUHcR+I8zpBO" ++
  "uLFsoJ5ZHlw3uh3LUPKtzAb6TDosvPqFOCOU9Wyjut5NvgsfTw1KBH4qw2qmAslJ" ++
  "KWvmqL3GYQlnB708bhydR1Pl3w=="

def keyDigits : String :=
  "MIIEvQIBADANBgkqhkiG9w0BAQEFAASCBKcwggSjAgEAAoIBAQDd3qKW2IN+IWZQ" ++
  "saBEniEKYBc6uv0Yzb2lvviTq8ERJJ66uMV05QWnD94VWIKdhSJMe9AQHMAiGOo7" ++
  "gJuTR7cKnYYzCYJQCAzacxsHHE+DD8o5MnveSte22otfs6gtoTBeBFePqiKzJS1Z" ++
  "5/KHujgbmrnvjOfpNTO6QbyR/q8hkSbDHYyASsdDIHZRojAfR0Lq1+ATd6s2fjYr" ++
  "m7QBAncrT3+TTMNEUoFTHegHjCeqK60PvbL5mKBPUjUtirhpDHbtE50c4xfw8t5L" ++
  "8BI17/XCBq+RneatFoqUfNBkKWYUiJZwmNehSNNgxYGienG3PZgbnY4oV1DOSs3v" ++
  "fY9DuvqlAgMBAAECggEACPAj9wAQRV+yv6kgOT4bkPpFBUyCJLfTyN5pejLO9idW" ++
  "WP8CPrl5Nv04fP38qRGIy7GoifWhNzPEv+foRzsk4GxvJcA00To5y6pxGiIQVp8n" ++
  "Y5LT6E/LN+ZppfiBW8aPbGzasC1yShWYfvONUt10JDHhWrP/pbv1x65H7/kQH2x7" ++
  "143IYUhh5Rh/mLZN8dOYr1rgUAwKX37a0lLidHkx4Ln8yg4L2bOkVIGUqsqYzIN0" ++
  "y7SlJJet/JfbSoCHA9NH1IN9nOaZclYIAiLurIGu+0rp1e+H5i9+GHhYBW8hGtX1" ++
  "6w0Io++LGU9GrtIi9qIvW/4gVHL87iba3Ft2oQfdYQKBgQDwFcJEYUr/2kF9g7Pa" ++
  "h1aL4NEAFPuM3PUZ5Ic6fSKiYT8O5jsrbTDWXsdZasoJzlRLvjYKEU+dtIzetIR+" ++
  "AU31jq8+MWUXG+zmNOPW/xjpDDTmGmebrN/qlGJ+IIMK1tvk8k6o39Sb2vScP0hT" ++
  "5IiW4v9HbzM+o14l//jbepyc0QKBgQDsk8Mi2TE2kHmLpsiRaEdZ0DsKkYtZfnkI" ++
  "QOcd/ssgtAjDJ9cuh6/QNNf8lNim49DrEmVuH9irkcjbGa2iVQiq21Sy6sKzWSuv" ++
  "1f2wYmw+05j0MVi7JopoFp7SqmJhlEn9+vUP+QMvsvb0eNoxAwdsrAGd0k3wSBEQ" ++
  "iernObGllQKBgHgLWSyZvUd62R4qOUa+Pw8H5Vj2JOVFIiTFOLyND0FEAKSxh8pp" ++
  "+W5my6SxGb6XdVy+CgU0rKt9OKauekUK3/E1W/hr+FD6vJRKw9WfjdQRL24Sq9WS" ++
  "Ng/0C99m4D8OObsbUSttZ8BaVc6+carI7WcMr3oHZwcd5ph3ifYsM5zRAoGBAIqo" ++
  "NAeZupFbbhGeqBEpSCBoviH8merTCIcA2zSmYFGDk1smX6Ui27WxMyIT70MpZQpR" ++
  "1ucLfUdZg5p+21i4dAMH2AWhOIo7ajJ9vlmB5iWQiSYeQf42oYpOL7oTKOQ+MHvO" ++
  "eZFqBicPwlQY/PEa8GAOFEh2uT1qT64c13O8SdVdAoGAGaupKcTZdlEV/51thCl5" ++
  "MxZJaPaOGC6C7Ks11LSdRFmennhYPoy7plVI3ytu2U6hBxIztZiBsTgNoZ84RlFN" ++
  "SujkJ24giTZ/tH4z4Aslht7FmwAkx/lixt5YN/3SBthdpcgq8q/OoSKgTyuLRMOA" ++
  "X7A3TSNBYth5haBCfIi9+p4="

def armoured (label digits : String) : String :=
  PemSection.text ⟨label, (Base64.decode? digits.toList).getD []⟩

def certificateFile : String := "cacert.pem"

def keyFile : String := "cakey.pem"

def files : List (String × String) :=
  [(certificateFile, armoured "CERTIFICATE" certificateDigits),
   (keyFile, armoured "PRIVATE KEY" keyDigits)]

def certificate : String := (files.lookup certificateFile).getD ""

def key : String := (files.lookup keyFile).getD ""

end Wiretap.Embedded
